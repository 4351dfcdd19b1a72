import Formulary.Analysis
import Formulary.Proofs.Traversals
import Mathlib.Algebra.BigOperators.Group.List.Lemmas
import Mathlib.Algebra.GroupWithZero.Nat
import Mathlib.Data.List.Perm.Subperm

/-!
# Tallies of operators

The counts of a formula are the tally of its operators in the order in which a postorder walk meets
them (`Formula.operators_eq`), so a tally lists each operator of the formula once, with the number of
its occurrences, and the operator met first comes first (`Formula.countOperators_in_postorder`). All
counts together are the number of binary nodes, and this number bounds what the other analyses find
(`Formula.analyses_bounded_by_counts`).
-/

namespace Formulary

/-! ### First occurrences -/

section
variable {α β : Type} [BEq α] [LawfulBEq α] [BEq β] [LawfulBEq β]

/-- What has been picked from a list keeps the order of first occurrence there, if only `e b` is
picked as `b`. -/
theorem pairwise_idxOf_eraseDups {g : α → Option β} {e : β → α}
    (hg : ∀ {a b}, g a = some b ↔ a = e b) (l : List α) :
    (l.filterMap g).eraseDups.Pairwise fun b c => l.idxOf (e b) < l.idxOf (e c) := by
  induction l with
  | nil => exact .nil
  | cons a l ih =>
    have hskip {b : β} (hb : g a ≠ some b) : (a :: l).idxOf (e b) = l.idxOf (e b) + 1 :=
      List.idxOf_cons_ne l fun h => hb (hg.mpr h)
    cases hga : g a with
    | none =>
      have hnone (b : β) : g a ≠ some b := by simp [hga]
      rw [List.filterMap_cons_none hga]
      refine ih.imp fun {b c} h => ?_
      rw [hskip (hnone b), hskip (hnone c)]
      exact Nat.succ_lt_succ h
    | some b₀ =>
      -- after the head come only those that differ from it
      have hother {b : β} (hb : b ∈ (l.filterMap g).eraseDups.filter fun c => !c == b₀) :
          g a ≠ some b := by
        have hne : b ≠ b₀ := by simpa using (List.mem_filter.mp hb).2
        rw [hga]
        exact fun h => hne (Option.some.inj h).symm
      rw [List.filterMap_cons_some hga, List.eraseDups_cons, eraseDups_filter]
      refine List.pairwise_cons.mpr ⟨fun b hb => ?_, ?_⟩
      · rw [List.idxOf_cons_eq l (hg.mp hga), hskip (hother hb)]
        exact Nat.succ_pos _
      · refine (ih.filter _).imp_of_mem fun {b c} hb hc h => ?_
        rw [hskip (hother hb), hskip (hother hc)]
        exact Nat.succ_lt_succ h

theorem nodup_eraseDups (l : List α) : l.eraseDups.Nodup := by
  have h := pairwise_idxOf_eraseDups (g := some) (e := id) Option.some_inj l
  rw [List.filterMap_some] at h
  refine h.imp fun {a b} hlt heq => ?_
  rw [heq] at hlt
  exact Nat.lt_irrefl _ hlt

theorem length_eraseDups_le (l : List α) : l.eraseDups.length ≤ l.length :=
  (List.subperm_of_subset (nodup_eraseDups l) fun _ => List.mem_eraseDups.mp).length_le

end

theorem sum_map_count_eraseDups {α : Type} [DecidableEq α] (l : List α) :
    (l.eraseDups.map fun a => l.count a).sum = l.length := by
  have hperm : l.eraseDups.Perm l.dedup := by
    refine (List.perm_ext_iff_of_nodup (nodup_eraseDups l) (List.nodup_dedup l)).mpr fun a => ?_
    rw [List.mem_eraseDups, List.mem_dedup]
  rw [(hperm.map _).sum_nat, List.sum_map_count_dedup_eq_length]

/-! ### Tallies of lists -/

namespace Tally

theorem mem_entries_ofList {l : List Operator} :
    (op, n) ∈ (ofList l).entries ↔ op ∈ l ∧ n = l.count op := by
  rw [ofList, List.mem_map]
  constructor
  · rintro ⟨op', hop, h⟩
    cases h
    exact ⟨List.mem_eraseDups.mp hop, rfl⟩
  · rintro ⟨hop, rfl⟩
    exact ⟨op, List.mem_eraseDups.mpr hop, rfl⟩

theorem sum_ofList (l : List Operator) : ((ofList l).entries.map Prod.snd).sum = l.length := by
  rw [← sum_map_count_eraseDups, ofList, List.map_map]
  rfl

theorem label_ofList (l : List Operator) : (ofList l).label =
    "\x7b" ++ ", ".intercalate (l.eraseDups.map fun op =>
      op.label ++ ": " ++ toString (l.count op)) ++ "\x7d" := by
  rw [label, ofList, List.map_map]
  rfl

end Tally

namespace Formula

/-! ### The order of a tally -/

def Label.operator? : Label → Option Operator
  | name _ => none
  | operator op => some op

theorem Label.operator?_eq_some_iff {l : Label} {op : Operator} :
    l.operator? = some op ↔ l = .operator op := by
  cases l <;> simp [operator?]

theorem operators_eq (f : Formula) : f.operators = f.postorder.filterMap Label.operator? := by
  induction f with
  | atom name => rfl
  | binary left op right ihl ihr =>
    rw [operators, postorder, List.filterMap_append, List.filterMap_append, ihl, ihr]
    rfl

theorem mem_operators {f : Formula} {op : Operator} :
    op ∈ f.operators ↔ .operator op ∈ f.postorder := by
  simp [operators_eq, Label.operator?_eq_some_iff]

theorem count_operators (f : Formula) (op : Operator) :
    f.operators.count op = f.postorder.count (.operator op) := by
  rw [operators_eq, List.count_filterMap, List.count]
  refine List.countP_congr fun l _ => ?_
  simp [Label.operator?_eq_some_iff]

/-- The counts of a formula have its operators as keys, each with the number of its occurrences and
in the order in which a postorder walk meets them first; in this order a record shows them. -/
theorem countOperators_in_postorder (f : Formula) (l : Logger) (name : String) :
    let t := f.countOperators.value l
    (∀ op, op ∈ t.keys ↔ .operator op ∈ f.postorder) ∧ t.keys.Nodup ∧
      (∀ op n, (op, n) ∈ t.entries → 0 < n ∧ n = f.postorder.count (.operator op)) ∧
      (t.keys.Pairwise fun a b =>
        f.postorder.idxOf (.operator a) < f.postorder.idxOf (.operator b)) ∧
      f.countOperators.records (.create name .debug) =
        [⟨.debug, "count_operators(" ++ f.render ++ ") -> " ++ "\x7b" ++
          ", ".intercalate (t.keys.map fun op =>
            op.label ++ ": " ++ toString (f.postorder.count (.operator op))) ++ "\x7d"⟩] := by
  intro t
  have ht : t = .ofList f.operators := f.counts_eq
  have hkeys : t.keys = f.operators.eraseDups := by rw [ht, Tally.keys_ofList]
  refine ⟨fun op => ?_, ?_, fun op n hn => ?_, ?_, ?_⟩
  · rw [hkeys, List.mem_eraseDups, mem_operators]
  · rw [hkeys]
    exact nodup_eraseDups _
  · rw [ht] at hn
    obtain ⟨hop, rfl⟩ := Tally.mem_entries_ofList.mp hn
    exact ⟨List.count_pos_iff.mpr hop, f.count_operators op⟩
  · rw [hkeys, operators_eq]
    exact pairwise_idxOf_eraseDups Label.operator?_eq_some_iff _
  · have hrecords : f.countOperators.records (.create name .debug) =
        [⟨.debug, "count_operators(" ++ f.render ++ ") -> " ++ f.counts.label⟩] := rfl
    rw [hrecords, counts_eq, Tally.label_ofList, hkeys]
    simp only [count_operators, String.append_assoc]

example : (binary (binary (atom "x") .plus (atom "y")) .less
    (binary (atom "x") .minus (atom "y"))).counts.keys = [.plus, .minus, .less] := by
  decide

/-! ### Sizes -/

theorem length_names (f : Formula) : f.names.length = f.operators.length + 1 := by
  induction f with
  | atom name => rfl
  | binary left op right ihl ihr =>
    simp only [names, operators, List.length_append, List.length_singleton, ihl, ihr]
    omega

theorem depth_le_length_operators (f : Formula) : f.depth ≤ f.operators.length := by
  induction f with
  | atom name => exact Nat.le_refl 0
  | binary left op right ihl ihr =>
    simp only [operators, depth_binary, List.length_append, List.length_singleton]
    omega

theorem length_names_le (f : Formula) : f.names.length ≤ 2 ^ f.depth := by
  induction f with
  | atom name => exact Nat.le_refl 1
  | binary left op right ihl ihr =>
    have hl : 2 ^ left.depth ≤ 2 ^ max left.depth right.depth :=
      Nat.pow_le_pow_right (by decide) (Nat.le_max_left _ _)
    have hr : 2 ^ right.depth ≤ 2 ^ max left.depth right.depth :=
      Nat.pow_le_pow_right (by decide) (Nat.le_max_right _ _)
    rw [names, List.length_append, depth_binary, Nat.add_comm 1, Nat.pow_succ]
    omega

theorem length_atoms_pos (f : Formula) : 0 < f.atoms.length := by
  have hnames : 0 < f.names.length := by
    rw [length_names]
    exact Nat.succ_pos _
  obtain ⟨name, hname⟩ := List.exists_mem_of_length_pos hnames
  rw [atoms_eq]
  exact List.length_pos_of_mem (List.mem_eraseDups.mpr hname)

/-- With `n` binary nodes in all, an outline has a line for each of them and for the atoms, of which
there is one more; no formula is deeper than it has binary nodes, and none is too shallow for its
atoms. -/
theorem analyses_bounded_by_counts (f : Formula) :
    let n := (f.counts.entries.map Prod.snd).sum
    f.outline.length = 2 * n + 1 ∧ f.depth ≤ n ∧ 1 ≤ f.atoms.length ∧ f.atoms.length ≤ n + 1 ∧
      n + 1 ≤ 2 ^ f.depth := by
  intro n
  have hn : n = f.operators.length := by
    change (f.counts.entries.map Prod.snd).sum = _
    rw [counts_eq, Tally.sum_ofList]
  have hnames := f.length_names
  rw [hn]
  refine ⟨?_, f.depth_le_length_operators, f.length_atoms_pos, ?_, ?_⟩
  · rw [outline_eq, List.length_map, length_levelled, hnames]
    omega
  · rw [← hnames, atoms_eq]
    exact length_eraseDups_le _
  · rw [← hnames]
    exact f.length_names_le

end Formula

end Formulary
