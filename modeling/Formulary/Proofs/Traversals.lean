import Formulary.Analysis.Atoms
import Formulary.Analysis.Counts
import Formulary.Analysis.Depth
import Formulary.Analysis.Outline

/-!
# What the analyses go through

Each analysis in terms of the atoms and the operators that a traversal meets, one entry for each
occurrence: the collected names are the names without repetition (`Formula.atoms_eq`), the counts
are the tally of the operators (`Formula.counts_eq`), and the outline has a line for each node at
its level (`Formula.outline_eq`).
-/

namespace Formulary

/-! ### First occurrences -/

section
variable {α : Type} [BEq α] [LawfulBEq α]

theorem eraseDups_filter (p : α → Bool) (l : List α) :
    (l.filter p).eraseDups = l.eraseDups.filter p := by
  induction hn : l.length using Nat.strongRecOn generalizing l with
  | ind n ih =>
    cases l with
    | nil => rfl
    | cons a l =>
      have hshort : (l.filter fun b => !b == a).length < n := by
        rw [← hn]
        exact Nat.lt_succ_of_le (List.length_filter_le _ _)
      rw [List.eraseDups_cons, List.filter_cons, List.filter_cons, ← ih _ hshort _ rfl,
        List.filter_filter]
      by_cases ha : p a
      · rw [if_pos ha, if_pos ha, List.eraseDups_cons, List.filter_filter]
        congr 3
        funext b
        exact Bool.and_comm _ _
      · rw [if_neg ha, if_neg ha]
        congr 1
        refine List.filter_congr fun b _ => ?_
        cases hb : p b with
        | false => rfl
        | true =>
          have hne : b ≠ a := fun h => ha (h ▸ hb)
          simp [hne]

end

namespace Formula

/-! ### Occurrences -/

/-- The names of the atoms from left to right, one for each occurrence. -/
def names : Formula → List String
  | atom name => [name]
  | binary left _ right => left.names ++ right.names

/-- The operators, one for each occurrence, those of the two sides before their own. -/
def operators : Formula → List Operator
  | atom _ => []
  | binary left op right => left.operators ++ right.operators ++ [op]

end Formula

/-! ### Atom names -/

namespace AtomCollector
variable {c : AtomCollector} {l : List String}

theorem seen_note (h : c.seen = l.eraseDups) (name : String) :
    (c.note name).seen = (l ++ [name]).eraseDups := by
  rw [note, List.eraseDups_append, h]
  by_cases hname : name ∈ l
  · rw [if_pos (List.mem_eraseDups.mpr hname), h]
    simp [List.removeAll, hname]
  · rw [if_neg (fun hmem => hname (List.mem_eraseDups.mp hmem))]
    simp [List.removeAll, hname, List.eraseDups_cons]

theorem seen_walk (h : c.seen = l.eraseDups) (f : Formula) :
    (c.walk f).seen = (l ++ f.names).eraseDups := by
  induction f generalizing c l with
  | atom name => exact seen_note h name
  | binary left op right ihl ihr =>
    rw [walk, ihr (ihl h), Formula.names, List.append_assoc]

end AtomCollector

theorem Formula.atoms_eq (f : Formula) : f.atoms = f.names.eraseDups :=
  AtomCollector.seen_walk (c := AtomCollector.empty) (l := []) rfl f

/-! ### Operator counts -/

theorem lookup_map_self {κ : Type} [BEq κ] [LawfulBEq κ] (g : κ → β) (ks : List κ) (a : κ) :
    (ks.map fun k => (k, g k)).lookup a = if a ∈ ks then some (g a) else none := by
  induction ks with
  | nil => rfl
  | cons k ks ih =>
    rw [List.map_cons, List.lookup_cons, ih]
    by_cases h : a = k
    · simp [h]
    · simp [h, beq_eq_false_iff_ne.mpr h]

namespace Tally

/-- The tally of some operators, one for each occurrence. -/
def ofList (l : List Operator) : Tally := ⟨l.eraseDups.map fun op => (op, l.count op)⟩

theorem keys_ofList (l : List Operator) : (ofList l).keys = l.eraseDups := by
  rw [keys, ofList, List.map_map]
  exact List.map_id _

theorem count_ofList (l : List Operator) (op : Operator) : (ofList l).count op = l.count op := by
  rw [count, ofList, lookup_map_self]
  by_cases h : op ∈ l
  · rw [if_pos (List.mem_eraseDups.mpr h), Option.getD_some]
  · rw [if_neg (fun hmem => h (List.mem_eraseDups.mp hmem)), Option.getD_none,
      List.count_eq_zero_of_not_mem h]

/-- No count is zero, so none is dropped, and the new operators come after the old ones. -/
theorem add_ofList (l m : List Operator) : (ofList l).add (ofList m) = ofList (l ++ m) := by
  have hold : ((ofList l).entries.map fun e => (e.1, e.2 + (ofList m).count e.1)).filter
      (fun e => 0 < e.2) = l.eraseDups.map fun op => (op, (l ++ m).count op) := by
    have hsum : (ofList l).entries.map (fun e => (e.1, e.2 + (ofList m).count e.1)) =
        l.eraseDups.map fun op => (op, (l ++ m).count op) := by
      simp only [count_ofList]
      simp [ofList]
    rw [hsum, List.filter_eq_self]
    intro e he
    obtain ⟨op, hop, rfl⟩ := List.mem_map.mp he
    have hpos := List.count_pos_iff.mpr (List.mem_append_left m (List.mem_eraseDups.mp hop))
    exact decide_eq_true hpos
  have hnew : (ofList m).entries.filter (fun e => !(ofList l).keys.contains e.1 && 0 < e.2) =
      (m.removeAll l).eraseDups.map fun op => (op, (l ++ m).count op) := by
    rw [keys_ofList, ofList, List.filter_map, List.removeAll, eraseDups_filter]
    have hfresh : ∀ op ∈ m.eraseDups, (!l.eraseDups.contains op && decide (0 < m.count op)) =
        !l.elem op := by
      intro op hop
      have hpos := List.count_pos_iff.mpr (List.mem_eraseDups.mp hop)
      simp [hpos]
    refine (congrArg _ (List.filter_congr hfresh)).trans (List.map_congr_left fun op hop => ?_)
    have hold : op ∉ l := by simpa using (List.mem_filter.mp hop).2
    rw [List.count_append, List.count_eq_zero_of_not_mem hold, Nat.zero_add]
  have hentries : ((ofList l).add (ofList m)).entries =
      (l.eraseDups ++ (m.removeAll l).eraseDups).map fun op => (op, (l ++ m).count op) := by
    rw [List.map_append, ← hold, ← hnew]
    rfl
  rw [← List.eraseDups_append] at hentries
  exact congrArg Tally.mk hentries

theorem bump_ofList (l : List Operator) (op : Operator) :
    (ofList l).bump op = ofList (l ++ [op]) := by
  have hcount (k : Operator) : (l ++ [op]).count k = l.count k + if op = k then 1 else 0 := by
    simp [List.count_append, List.count_singleton]
  rw [bump, keys_ofList, ofList, ofList, List.eraseDups_append]
  by_cases h : op ∈ l
  · have hold : [op].removeAll l = [] := by simp [List.removeAll, h]
    rw [if_pos (by simpa using h), hold, List.eraseDups_nil, List.append_nil, List.map_map]
    congr 1
    refine List.map_congr_left fun k _ => ?_
    rw [hcount]
    by_cases hk : k = op
    · simp [hk]
    · simp [hk, Ne.symm hk]
  · have hnew : [op].removeAll l = [op] := by simp [List.removeAll, h]
    rw [if_neg (by simpa using h), hnew, List.eraseDups_cons, List.filter_nil, List.eraseDups_nil,
      List.map_append, List.map_singleton, hcount, if_pos rfl, List.count_eq_zero_of_not_mem h]
    congr 2
    refine List.map_congr_left fun k hk => ?_
    have hne : op ≠ k := fun hop => h (hop ▸ List.mem_eraseDups.mp hk)
    rw [hcount, if_neg hne]
    rfl

end Tally

theorem Formula.counts_eq (f : Formula) : f.counts = .ofList f.operators := by
  induction f with
  | atom name => rfl
  | binary left op right ihl ihr =>
    rw [counts, ihl, ihr, Tally.add_ofList, Tally.bump_ofList, operators]

theorem Formula.count_counts (f : Formula) (op : Operator) :
    f.counts.count op = f.operators.count op := by
  rw [counts_eq, Tally.count_ofList]

/-! ### Outlines -/

/-- The labels with their levels, each node before its left and then its right subtree; the root is
at level `level`. -/
def Formula.levelled (level : Nat) : Formula → List (Nat × Label)
  | atom name => [(level, .name name)]
  | binary left op right =>
    (level, .operator op) :: (left.levelled (level + 1) ++ right.levelled (level + 1))

theorem Formula.map_snd_levelled (level : Nat) (f : Formula) :
    (f.levelled level).map Prod.snd = f.preorder := by
  induction f generalizing level with
  | atom name => rfl
  | binary left op right ihl ihr =>
    rw [levelled, List.map_cons, List.map_append, ihl, ihr, preorder]

/-- All levels go up with that of the root. -/
theorem Formula.levelled_add (level k : Nat) (f : Formula) :
    f.levelled (level + k) = (f.levelled k).map fun l => (level + l.1, l.2) := by
  induction f generalizing k with
  | atom name => rfl
  | binary left op right ihl ihr =>
    rw [levelled, levelled, List.map_cons, List.map_append, Nat.add_assoc, ihl, ihr]

namespace OutlinePrinter

/-- The line of a label at a level. -/
def line (l : Nat × Formula.Label) : String := indentation l.1 ++ l.2.text

theorem walk_eq (p : OutlinePrinter) (f : Formula) :
    p.walk f = { p with lines := p.lines ++ (f.levelled p.level).map line } := by
  induction f generalizing p with
  | atom name => rfl
  | binary left op right ihl ihr =>
    simp [walk, ihl, ihr, write, Formula.levelled, line, Formula.Label.text]

end OutlinePrinter

theorem Formula.outline_eq (f : Formula) : f.outline = (f.levelled 0).map OutlinePrinter.line := by
  rw [outline, OutlinePrinter.outline, OutlinePrinter.walk_eq]
  rfl

theorem Formula.length_levelled (level : Nat) (f : Formula) :
    (f.levelled level).length = f.names.length + f.operators.length := by
  induction f generalizing level with
  | atom name => rfl
  | binary left op right ihl ihr =>
    simp only [levelled, names, operators, List.length_cons, List.length_append, ihl, ihr]
    simp
    omega

end Formulary
