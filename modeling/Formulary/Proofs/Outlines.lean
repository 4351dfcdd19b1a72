import Formulary.Proofs.Traversals

/-!
# Outlines identify formulas

A line tells its level by the spaces that it begins with, as long as no name begins with a space
itself. That an operator's symbol may also be a name does no harm: the line of an operator is
followed by a deeper line, and that of an atom is not. So a formula is told by the first of some
lines, whatever lines of no deeper level come after its own (`Formula.levelled_append_inj`), and no
two formulas share an outline.
-/

namespace Formulary

/-- The text does not begin with a space. -/
def IsUnindented (s : String) : Prop := s.toList.head? ≠ some ' '

instance : DecidablePred IsUnindented := fun s =>
  inferInstanceAs (Decidable (s.toList.head? ≠ some ' '))

theorem Operator.isUnindented_symbol (op : Operator) : IsUnindented op.symbol := by
  cases op <;> decide

/-! ### Lines -/

namespace OutlinePrinter
variable {l m : Nat × Formula.Label}

/-- The spaces that a line begins with are its indentation. -/
theorem takeWhile_line (hl : IsUnindented l.2.text) :
    (line l).toList.takeWhile (· = ' ') = List.replicate (2 * l.1) ' ' := by
  have hspaces : ∀ c ∈ List.replicate (2 * l.1) ' ', decide (c = ' ') = true := by
    intro c hc
    exact decide_eq_true (List.eq_of_mem_replicate hc)
  have htext : l.2.text.toList.takeWhile (· = ' ') = [] := by
    cases hcs : l.2.text.toList with
    | nil => rfl
    | cons c cs =>
      have hc : c ≠ ' ' := fun h => hl (by rw [hcs, h]; rfl)
      exact List.takeWhile_cons_of_neg (by simpa using hc)
  rw [line, indentation, String.toList_append, Text.toList_spaces,
    List.takeWhile_append_of_pos hspaces, htext, List.append_nil]

/-- A line tells its level and its text. -/
theorem line_inj (h : line l = line m) (hl : IsUnindented l.2.text)
    (hm : IsUnindented m.2.text) : l.1 = m.1 ∧ l.2.text = m.2.text := by
  have hlevel : l.1 = m.1 := by
    have hspaces := takeWhile_line hl
    rw [h, takeWhile_line hm] at hspaces
    have hlength := congrArg List.length hspaces
    rw [List.length_replicate, List.length_replicate] at hlength
    omega
  have h : (indentation l.1 ++ l.2.text).toList = (indentation m.1 ++ m.2.text).toList :=
    congrArg String.toList h
  rw [hlevel, String.toList_append, String.toList_append] at h
  exact ⟨hlevel, String.toList_inj.mp (List.append_cancel_left h)⟩

end OutlinePrinter
open OutlinePrinter (line line_inj)

namespace Formula

/-- What the node at the root of a formula is labelled with. -/
def rootLabel : Formula → Label
  | atom name => .name name
  | binary _ op _ => .operator op

theorem isUnindented_rootLabel {f : Formula} (hf : f.EveryName IsUnindented) :
    IsUnindented f.rootLabel.text := by
  cases f with
  | atom name => exact hf
  | binary left op right => exact op.isUnindented_symbol

theorem levelled_atom_append (level : Nat) (name : String) (ls : List (Nat × Label)) :
    (atom name).levelled level ++ ls = (level, .name name) :: ls := rfl

theorem levelled_binary_append (level : Nat) (left : Formula) (op : Operator) (right : Formula)
    (ls : List (Nat × Label)) : (binary left op right).levelled level ++ ls =
      (level, .operator op) ::
        (left.levelled (level + 1) ++ (right.levelled (level + 1) ++ ls)) := by
  rw [levelled, List.cons_append, List.append_assoc]

theorem levelled_eq_cons (level : Nat) (f : Formula) :
    ∃ ls, f.levelled level = (level, f.rootLabel) :: ls := by
  cases f <;> exact ⟨_, rfl⟩

/-- The first of these lines, if there are any, is not that of a node below one at `level`, and can
be told from such a line. -/
def Shallow (level : Nat) (ls : List (Nat × Label)) : Prop :=
  ∀ l ∈ ls.head?, l.1 ≤ level ∧ IsUnindented l.2.text

theorem Shallow.nil (level : Nat) : Shallow level [] := nofun

theorem Shallow.mono {ls : List (Nat × Label)} (H : Shallow level ls) (h : level ≤ level') :
    Shallow level' ls :=
  fun l hl => ⟨Nat.le_trans (H l hl).1 h, (H l hl).2⟩

theorem Shallow.levelled {f : Formula} (hf : f.EveryName IsUnindented) (level : Nat)
    (ls : List (Nat × Label)) : Shallow level (f.levelled level ++ ls) := by
  obtain ⟨ms, hms⟩ := levelled_eq_cons level f
  rw [hms]
  intro l hl
  cases hl
  exact ⟨Nat.le_refl level, isUnindented_rootLabel hf⟩

/-- No line of a shallow list is that of a node below. -/
theorem Shallow.map_line_ne {f : Formula} {ls ms : List (Nat × Label)} (H : Shallow level ls)
    (hf : f.EveryName IsUnindented) : ls.map line ≠ (f.levelled (level + 1) ++ ms).map line := by
  obtain ⟨ns, hns⟩ := levelled_eq_cons (level + 1) f
  rw [hns]
  intro h
  cases ls with
  | nil => cases h
  | cons l ls =>
    obtain ⟨hlevel, hl⟩ := H l rfl
    obtain ⟨hline, -⟩ := List.cons.inj h
    have := (line_inj hline hl (isUnindented_rootLabel hf)).1
    omega

/-- A formula is told by its lines, and so are the lines that come after them. -/
theorem levelled_append_inj {f g : Formula} {ls ms : List (Nat × Label)}
    (hf : f.EveryName IsUnindented) (hg : g.EveryName IsUnindented) (hls : Shallow level ls)
    (hms : Shallow level ms)
    (h : (f.levelled level ++ ls).map line = (g.levelled level ++ ms).map line) :
    f = g ∧ ls.map line = ms.map line := by
  induction f generalizing g level ls ms with
  | atom name =>
    cases g with
    | atom name' =>
      rw [levelled_atom_append, levelled_atom_append] at h
      obtain ⟨hline, hrest⟩ := List.cons.inj h
      have hname : name = name' := (line_inj hline hf hg).2
      exact ⟨by rw [hname], hrest⟩
    | binary left op right =>
      -- the second line of `g` is deeper than what may come after an atom
      rw [levelled_atom_append, levelled_binary_append] at h
      exact absurd (List.cons.inj h).2 (hls.map_line_ne hg.1)
  | binary left op right ihl ihr =>
    cases g with
    | atom name =>
      rw [levelled_atom_append, levelled_binary_append] at h
      exact absurd (List.cons.inj h).2.symm (hms.map_line_ne hf.1)
    | binary left' op' right' =>
      rw [levelled_binary_append, levelled_binary_append] at h
      obtain ⟨hline, hrest⟩ := List.cons.inj h
      have hsymbol : op.symbol = op'.symbol :=
        (line_inj hline op.isUnindented_symbol op'.isUnindented_symbol).2
      obtain ⟨hl, hrest⟩ := ihl hf.1 hg.1 (.levelled hf.2 _ _) (.levelled hg.2 _ _) hrest
      have hle : level ≤ level + 1 := Nat.le_succ level
      obtain ⟨hr, hrest⟩ := ihr hf.2 hg.2 (hls.mono hle) (hms.mono hle) hrest
      rw [hl, Operator.symbol_injective hsymbol, hr]
      exact ⟨rfl, hrest⟩

/-- Among formulas with unindented names, equal outlines mean equal formulas. -/
theorem outline_eq_outline_iff {f g : Formula} (hf : f.EveryName IsUnindented)
    (hg : g.EveryName IsUnindented) : f.outline = g.outline ↔ f = g := by
  constructor
  · intro h
    rw [outline_eq, outline_eq] at h
    have h : (f.levelled 0 ++ []).map line = (g.levelled 0 ++ []).map line := by
      rw [List.append_nil, List.append_nil, h]
    exact (levelled_append_inj hf hg (.nil 0) (.nil 0) h).1
  · rintro rfl
    rfl

theorem outline_eq_outline_iff_symbols :
    let f := binary (binary (atom "+") .plus (atom "")) .plus (atom "+")
    let g := binary (atom "+") .plus (binary (atom "") .plus (atom "+"))
    f.EveryName IsUnindented ∧ g.EveryName IsUnindented ∧
      f.preorder.map Label.text = g.preorder.map Label.text ∧ f.outline ≠ g.outline := by
  intro f g
  have hf : f.EveryName IsUnindented := by decide
  have hg : g.EveryName IsUnindented := by decide
  refine ⟨hf, hg, rfl, fun h => ?_⟩
  exact absurd ((outline_eq_outline_iff hf hg).mp h) (by decide)

end Formula

end Formulary
