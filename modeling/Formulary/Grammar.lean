import Formulary.Formula
import Formulary.Token

/-!
# The grammar of formulas

What texts and token sequences stand for formulas, said without the reader. `Written f cs` holds if
the characters `cs` are a text of the formula `f`, with gaps and redundant parentheses anywhere.
`Phrase ts` holds if the tokens `ts` are grammatical once any run of operator characters is allowed
as an operator.
-/

namespace Formulary

namespace Token

/-- A run of characters that separates tokens, possibly empty. -/
def IsGap (cs : List Char) : Prop := ∀ c ∈ cs, isIgnored c

theorem IsGap.nil : IsGap [] := fun _ h => nomatch h

theorem IsGap.space : IsGap [' '] := by
  simp [IsGap, isIgnored]

theorem IsGap.append {g g' : List Char} (H : IsGap g) (H' : IsGap g') : IsGap (g ++ g') :=
  fun c h => (List.mem_append.mp h).elim (H c) (H' c)

/-- The characters are those of a token of this kind. -/
def Kind.Matches : Kind → List Char → Prop
  | leftParen, cs => cs = ['(']
  | rightParen, cs => cs = [')']
  | operator, cs => cs ≠ [] ∧ ∀ c ∈ cs, isOperatorChar c
  | identifier, cs => ∃ c rest, cs = c :: rest ∧ isNameStart c ∧ ∀ d ∈ rest, isNameChar d
  | number, cs => cs ≠ [] ∧ ∀ c ∈ cs, Text.isDigit c

/-- The tokens of one formula, whatever the texts of its operators. -/
inductive Phrase : List Token → Prop
  | atom : t.kind = .identifier ∨ t.kind = .number → Phrase [t]
  | group : l.kind = .leftParen → Phrase ts → r.kind = .rightParen →
    Phrase (l :: ts ++ [r])
  | binary : l.kind = .leftParen → Phrase ts → o.kind = .operator → Phrase us →
    r.kind = .rightParen → Phrase (l :: ts ++ o :: us ++ [r])

/-- The open groups after one more token, innermost first, each with the operator that stands
directly inside it, if any. -/
def nextGroups (groups : List (Option String)) (t : Token) : List (Option String) :=
  match t.kind, groups with
  | .leftParen, groups => none :: groups
  | .operator, _ :: groups => some t.text :: groups
  | .rightParen, _ :: groups => groups
  | _, groups => groups

/-- The groups that some tokens leave open. -/
def openGroups (ts : List Token) : List (Option String) := ts.foldl nextGroups []

end Token

/-- A name that is read as an atom. -/
def IsAtomName (name : String) : Prop :=
  Token.Kind.identifier.Matches name.toList ∨ Token.Kind.number.Matches name.toList

/-- The texts of a formula. -/
inductive Formula.Written : Formula → List Char → Prop
  | atom : Token.IsGap g → IsAtomName name → Token.IsGap g' →
    Written (.atom name) (g ++ name.toList ++ g')
  | group : Token.IsGap g → Written f cs → Token.IsGap g' →
    Written f (g ++ '(' :: cs ++ ')' :: g')
  | binary : Token.IsGap g → Written left cs → Written right ds → Token.IsGap g' →
    Written (.binary left op right) (g ++ '(' :: cs ++ op.symbol.toList ++ ds ++ ')' :: g')

namespace Formula

/-- The names of all atoms can be read. -/
def Readable : Formula → Prop
  | atom name => IsAtomName name
  | binary left _ right => left.Readable ∧ right.Readable

@[simp] theorem readable_atom {name : String} : (atom name).Readable ↔ IsAtomName name := Iff.rfl

@[simp] theorem readable_binary {left right : Formula} {op : Operator} :
    (binary left op right).Readable ↔ left.Readable ∧ right.Readable := Iff.rfl

/-- Only readable formulas have texts. -/
theorem Written.readable {f : Formula} (H : f.Written cs) : f.Readable := by
  induction H with
  | atom _ h _ => exact h
  | group _ _ _ ih => exact ih
  | binary _ _ _ _ ihl ihr => exact ⟨ihl, ihr⟩

/-- A text may have gaps around it. -/
theorem Written.gaps {f : Formula} (H : f.Written cs) (hg : Token.IsGap g)
    (hg' : Token.IsGap g') : f.Written (g ++ cs ++ g') := by
  cases H with
  | atom h hname h' => simpa using Written.atom (hg.append h) hname (h'.append hg')
  | group h hf h' => simpa using Written.group (hg.append h) hf (h'.append hg')
  | binary h hl hr h' => simpa using Written.binary (hg.append h) hl hr (h'.append hg')

/-- The canonical text of a readable formula is one of its texts. -/
theorem Readable.written {f : Formula} (H : f.Readable) : f.Written f.render.toList := by
  induction f with
  | atom name => simpa using Written.atom .nil H .nil
  | binary left op right ihl ihr =>
    have hl := (ihl H.1).gaps .nil .space
    have hr := (ihr H.2).gaps .space .nil
    simpa using Written.binary .nil hl hr .nil

end Formula

end Formulary
