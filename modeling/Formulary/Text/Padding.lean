/-!
# Padding
-/

namespace Formulary.Text

/-- A run of spaces. -/
def spaces (n : Nat) : String := String.ofList (List.replicate n ' ')

/-- The text followed by as many spaces as it takes to fill `width`. -/
def padRight (width : Nat) (s : String) : String := s ++ spaces (width - s.length)

@[simp] theorem toList_spaces (n : Nat) : (spaces n).toList = List.replicate n ' ' := by
  simp [spaces]

end Formulary.Text
