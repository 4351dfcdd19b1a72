import Formulary.Proofs.Grafting
import Formulary.Proofs.Outlines
import Formulary.Proofs.Rendering
import Formulary.Proofs.RunningSums

/-!
# Depth in texts and outlines

The depth of a formula shows in its canonical text, as the greatest number of groups that are open
at once (`Formula.nested_render`), and in its outline, as the deepest level of a line
(`Formula.max?_levelled`). For the text the names must be free of parentheses, and for the outline
they must not begin with a space, or names would be taken for structure.
-/

namespace Formulary

/-! ### Characters -/

/-- There is no parenthesis in the text. -/
def IsUnbracketed (s : String) : Prop := '(' ∉ s.toList ∧ ')' ∉ s.toList

instance : DecidablePred IsUnbracketed := fun s =>
  inferInstanceAs (Decidable ('(' ∉ s.toList ∧ ')' ∉ s.toList))

theorem Operator.isUnbracketed_symbol (op : Operator) : IsUnbracketed op.symbol :=
  op.isBareName_symbol.2

namespace Text

/-- How many more groups are open after the character than before it. -/
def opening (c : Char) : Int := if c = '(' then 1 else if c = ')' then -1 else 0

/-- How many more parentheses open than close. -/
def balance (cs : List Char) : Int := cs.count '(' - cs.count ')'

theorem total_opening (cs : List Char) : total opening cs = balance cs := by
  induction cs with
  | nil => rfl
  | cons c cs ih =>
    rw [total, ih, opening, balance, balance, List.count_cons, List.count_cons]
    by_cases hleft : c = '('
    · simp [hleft]
      omega
    · by_cases hright : c = ')'
      · simp [hright]
        omega
      · simp [hleft, hright]

/-- How many spaces a line begins with. -/
def leadingSpaces (line : String) : Nat := (line.toList.takeWhile (· = ' ')).length

end Text
open Text (opening balance leadingSpaces)

theorem IsUnbracketed.nested (hs : IsUnbracketed s) : Nested opening s.toList 0 := by
  refine .of_forall_eq_zero fun c hc => ?_
  have hleft : c ≠ '(' := fun h => hs.1 (h ▸ hc)
  have hright : c ≠ ')' := fun h => hs.2 (h ▸ hc)
  rw [opening, if_neg hleft, if_neg hright]

namespace Formula

/-! ### Canonical texts -/

theorem nested_render {f : Formula} (hf : f.EveryName IsUnbracketed) :
    Nested opening f.render.toList f.depth := by
  induction f with
  | atom name => exact IsUnbracketed.nested hf
  | binary left op right ihl ihr =>
    have hspace : opening ' ' = 0 := rfl
    have hop := op.isUnbracketed_symbol.nested
    have hinner := (ihl hf.1).append ((hop.append ((ihr hf.2).cons hspace)).cons hspace)
    -- the symbol stands at the level of the operands and nests nothing
    have h := hinner.group (a := '(') (b := ')') rfl rfl
    rw [depth_binary, Nat.add_comm]
    simpa using h

/-! ### Outlines -/

theorem max?_levelled (level : Nat) (f : Formula) :
    ((f.levelled level).map fun l => 2 * l.1).max? = some (2 * (level + f.depth)) := by
  induction f generalizing level with
  | atom name => rfl
  | binary left op right ihl ihr =>
    have hroot : ([(level, Label.operator op)].map fun l => 2 * l.1).max? = some (2 * level) := rfl
    rw [levelled, ← List.singleton_append, List.map_append, List.map_append,
      max?_append hroot (max?_append (ihl (level + 1)) (ihr (level + 1))), depth_binary]
    congr 1
    omega

theorem isUnindented_of_mem_levelled {f : Formula} (hf : f.EveryName IsUnindented)
    (h : l ∈ f.levelled level) : IsUnindented l.2.text := by
  induction f generalizing level with
  | atom name =>
    obtain rfl := List.mem_singleton.mp h
    exact hf
  | binary left op right ihl ihr =>
    rw [levelled] at h
    rcases List.mem_cons.mp h with rfl | h
    · exact op.isUnindented_symbol
    · exact (List.mem_append.mp h).elim (ihl hf.1) (ihr hf.2)

theorem leadingSpaces_line {l : Nat × Label} (hl : IsUnindented l.2.text) :
    leadingSpaces (OutlinePrinter.line l) = 2 * l.1 := by
  rw [leadingSpaces, OutlinePrinter.takeWhile_line hl, List.length_replicate]

theorem map_leadingSpaces_outline {f : Formula} (hf : f.EveryName IsUnindented) :
    f.outline.map leadingSpaces = (f.levelled 0).map fun l => 2 * l.1 := by
  rw [outline_eq, List.map_map]
  exact List.map_congr_left fun l hl => leadingSpaces_line (isUnindented_of_mem_levelled hf hl)

/-- The depth is the greatest number of open parentheses in the canonical text, which are balanced,
and half of the widest indentation in the outline. -/
theorem depth_in_render_and_outline {f : Formula} (hf : f.EveryName IsUnbracketed)
    (hf' : f.EveryName IsUnindented) :
    (f.render.toList.inits.map balance).max? = some (f.depth : Int) ∧
      (f.outline.map leadingSpaces).max? = some (2 * f.depth) ∧
      balance f.render.toList = 0 ∧ ∀ cs, cs <+: f.render.toList → 0 ≤ balance cs := by
  have H := nested_render hf
  refine ⟨?_, ?_, ?_, fun cs hcs => ?_⟩
  · rw [← H.deepest, ← max?_total_inits]
    exact congrArg List.max? (List.map_congr_left fun cs _ => (Text.total_opening cs).symm)
  · rw [map_leadingSpaces_outline hf', max?_levelled, Nat.zero_add]
  · rw [← Text.total_opening]
    exact H.balanced
  · rw [← Text.total_opening]
    exact H.nonneg_of_prefix hcs

theorem depth_in_render_and_outline_spaced :
    let f := binary (binary (atom "x y") .plus (atom "")) .less (binary (atom "->") .minus
      (binary (atom "x ") .plus (atom "1")))
    f.EveryName IsUnbracketed ∧ f.EveryName IsUnindented ∧
      f.render = "((x y + ) < (-> - (x  + 1)))" ∧
      (f.render.toList.inits.map balance).max? = some 3 ∧
      (f.outline.map leadingSpaces).max? = some 6 := by
  intro f
  have hf : f.EveryName IsUnbracketed := by decide
  have hf' : f.EveryName IsUnindented := by decide
  obtain ⟨hrender, houtline, -⟩ := depth_in_render_and_outline hf hf'
  exact ⟨hf, hf', rfl, hrender, houtline⟩

end Formula

end Formulary
