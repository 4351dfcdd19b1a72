/-!
# Line ends

A line may end in LF, CR LF or CR; read from a file, each of the three is one LF.
-/

namespace Formulary.Text

/-- Every line end as one LF. -/
def unifyLineEnds : List Char → List Char
  | [] => []
  | '\r' :: '\n' :: cs => '\n' :: unifyLineEnds cs
  | c :: cs => (if c = '\r' then '\n' else c) :: unifyLineEnds cs

@[simp] theorem unifyLineEnds_nil : unifyLineEnds [] = [] := rfl

theorem unifyLineEnds_cons {c : Char} (h : c ≠ '\r') (cs : List Char) :
    unifyLineEnds (c :: cs) = c :: unifyLineEnds cs := by
  rw [unifyLineEnds]
  · rw [if_neg h]
  · rintro _ rfl
    exact absurd rfl h

theorem unifyLineEnds_cr_lf (cs : List Char) :
    unifyLineEnds ('\r' :: '\n' :: cs) = '\n' :: unifyLineEnds cs := rfl

theorem unifyLineEnds_cr {cs : List Char} (h : cs.head? ≠ some '\n') :
    unifyLineEnds ('\r' :: cs) = '\n' :: unifyLineEnds cs := by
  rw [unifyLineEnds]
  · rw [if_pos rfl]
  · rintro ds - rfl
    exact h rfl

theorem unifyLineEnds_append {w : List Char} (h : '\r' ∉ w) (cs : List Char) :
    unifyLineEnds (w ++ cs) = w ++ unifyLineEnds cs := by
  induction w with
  | nil => rfl
  | cons c w ih =>
    obtain ⟨hc, hw⟩ := not_or.mp (mt List.mem_cons.mpr h)
    rw [List.cons_append, unifyLineEnds_cons (Ne.symm hc), ih hw, List.cons_append]

/-- A property that CR and LF have both or neither is one of all characters or of none. -/
theorem forall_mem_unifyLineEnds {p : Char → Prop} (h : p '\r' ↔ p '\n') {cs : List Char} :
    (∀ c ∈ unifyLineEnds cs, p c) ↔ ∀ c ∈ cs, p c := by
  fun_induction unifyLineEnds cs with
  | case1 => simp
  | case2 cs ih => simp [ih, h]
  | case3 c cs _ ih =>
    have hc : p (if c = '\r' then '\n' else c) ↔ p c := by
      split
      · subst c; exact h.symm
      · exact Iff.rfl
    simp only [List.forall_mem_cons, hc, ih]

end Formulary.Text
