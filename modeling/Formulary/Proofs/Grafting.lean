import Formulary.Proofs.Substitution
import Formulary.Proofs.Traversals
import Mathlib.Algebra.GroupWithZero.Nat
import Mathlib.Data.List.Induction

/-!
# The analyses after a substitution

Substitution grafts formulas onto atoms. What the analyses find afterwards is told by what they
find in the formula and in the grafts: the names come from the names of the formula, each of which
has to be expanded only once (`Formula.atoms_substitute`), every occurrence of an atom adds the
operators of its graft (`Formula.count_substitute`), and a graft reaches down from the level of its
atom by its own depth (`Formula.max?_depth_substitute`). In memory all this holds whatever is
shared, although a shared node is gone through once and its occurrences count one by one.
-/

namespace Formulary

/-! ### First occurrences -/

section
variable {α β : Type} [BEq α] [LawfulBEq α] [BEq β] [LawfulBEq β]

theorem eraseDups_append_congr {xs xs' ys ys' : List α} (hxs : xs.eraseDups = xs'.eraseDups)
    (hys : ys.eraseDups = ys'.eraseDups) : (xs ++ ys).eraseDups = (xs' ++ ys').eraseDups := by
  have hmem : ∀ a, a ∈ xs ↔ a ∈ xs' := by
    intro a
    rw [← List.mem_eraseDups, hxs, List.mem_eraseDups]
  have helem : (fun a => !xs.elem a) = fun a => !xs'.elem a := by
    funext a
    rw [Bool.not_inj_iff, Bool.eq_iff_iff, List.elem_iff, List.elem_iff, hmem]
  rw [List.eraseDups_append, List.eraseDups_append, List.removeAll, List.removeAll,
    eraseDups_filter, eraseDups_filter, hxs, hys, helem]

theorem eraseDups_append_of_subset {xs ys : List α} (h : ys ⊆ xs) :
    (xs ++ ys).eraseDups = xs.eraseDups := by
  have hnone : ys.removeAll xs = [] := by
    refine List.filter_eq_nil_iff.mpr fun a ha => ?_
    simpa using h ha
  rw [List.eraseDups_append, hnone, List.eraseDups_nil, List.append_nil]

/-- What comes from a second occurrence has been there since the first. -/
theorem eraseDups_flatMap (g : α → List β) (l : List α) :
    (l.eraseDups.flatMap g).eraseDups = (l.flatMap g).eraseDups := by
  induction l using List.reverseRecOn with
  | nil => rfl
  | append_singleton l a ih =>
    rw [List.flatMap_append, List.flatMap_singleton]
    by_cases ha : a ∈ l
    · have hold : [a] ⊆ l := by simpa using ha
      have hgold : g a ⊆ l.flatMap g := fun b hb => List.mem_flatMap_of_mem ha hb
      rw [eraseDups_append_of_subset hold, eraseDups_append_of_subset hgold, ih]
    · have hnew : [a].removeAll l = [a] := by simp [List.removeAll, ha]
      rw [List.eraseDups_append, hnew, List.eraseDups_cons, List.filter_nil, List.eraseDups_nil,
        List.flatMap_append, List.flatMap_singleton]
      exact eraseDups_append_congr ih rfl

theorem eraseDups_eraseDups (l : List α) : l.eraseDups.eraseDups = l.eraseDups := by
  have h := eraseDups_flatMap (fun a => [a]) l
  rwa [List.flatMap_singleton', List.flatMap_singleton'] at h

theorem eraseDups_flatMap_congr {γ : Type} {g g' : γ → List α} {l : List γ}
    (h : ∀ a ∈ l, (g a).eraseDups = (g' a).eraseDups) :
    (l.flatMap g).eraseDups = (l.flatMap g').eraseDups := by
  induction l with
  | nil => rfl
  | cons a l ih =>
    rw [List.flatMap_cons, List.flatMap_cons]
    refine eraseDups_append_congr (h a List.mem_cons_self) (ih fun b hb => ?_)
    exact h b (List.mem_cons_of_mem a hb)

end

/-! ### Greatest values -/

theorem max?_append {xs ys : List Nat} (hxs : xs.max? = some a) (hys : ys.max? = some b) :
    (xs ++ ys).max? = some (max a b) := by
  obtain ⟨ha, hxs⟩ := List.max?_eq_some_iff.mp hxs
  obtain ⟨hb, hys⟩ := List.max?_eq_some_iff.mp hys
  refine List.max?_eq_some_iff.mpr ⟨?_, fun c hc => ?_⟩
  · rcases Nat.le_total a b with hab | hba
    · rw [Nat.max_eq_right hab]
      exact List.mem_append_right xs hb
    · rw [Nat.max_eq_left hba]
      exact List.mem_append_left ys ha
  · rcases List.mem_append.mp hc with hc | hc
    · exact Nat.le_trans (hxs c hc) (Nat.le_max_left a b)
    · exact Nat.le_trans (hys c hc) (Nat.le_max_right a b)

/-! ### Grafts -/

namespace Formula

/-- The occurrences of atoms from left to right, each with its level; the root is at level
`level`. -/
def leaves (level : Nat) : Formula → List (Nat × String)
  | atom name => [(level, name)]
  | binary left _ right => left.leaves (level + 1) ++ right.leaves (level + 1)

variable {m : List (String × Formula)}

theorem names_substitute (f : Formula) :
    (f.substitute m).names = f.names.flatMap fun name => (m.lookup name).elim [name] names := by
  induction f with
  | atom name =>
    rw [substitute, names, List.flatMap_singleton]
    cases m.lookup name <;> rfl
  | binary left op right ihl ihr =>
    rw [substitute, names, names, List.flatMap_append, ihl, ihr]

/-- Each name is expanded once. -/
theorem atoms_substitute (f : Formula) : (f.substitute m).atoms =
    (f.atoms.flatMap fun name => (m.lookup name).elim [name] atoms).eraseDups := by
  rw [atoms_eq, names_substitute, atoms_eq, ← eraseDups_flatMap]
  refine eraseDups_flatMap_congr fun name _ => ?_
  cases m.lookup name with
  | none => rfl
  | some g => rw [Option.elim_some, Option.elim_some, atoms_eq, eraseDups_eraseDups]

/-- Each occurrence of an atom adds what its graft has. -/
theorem count_substitute (f : Formula) (op : Operator) (level : Nat) :
    (f.substitute m).operators.count op = f.operators.count op +
      (((f.leaves level).filterMap fun leaf => m.lookup leaf.2).map
        fun g => g.operators.count op).sum := by
  induction f generalizing level with
  | atom name =>
    rw [substitute, leaves]
    cases h : m.lookup name <;> simp [h, operators]
  | binary left op' right ihl ihr =>
    rw [substitute, operators, operators, leaves, List.filterMap_append, List.map_append,
      List.sum_append, List.count_append, List.count_append, List.count_append, List.count_append,
      ihl (level + 1), ihr (level + 1)]
    omega

/-- A graft reaches as far below its atom as it is deep. -/
theorem max?_depth_substitute (f : Formula) (level : Nat) :
    ((f.leaves level).map fun leaf => leaf.1 + (m.lookup leaf.2).elim 0 depth).max? =
      some (level + (f.substitute m).depth) := by
  induction f generalizing level with
  | atom name =>
    rw [leaves, substitute]
    cases h : m.lookup name <;> simp [h]
  | binary left op right ihl ihr =>
    rw [leaves, List.map_append, max?_append (ihl (level + 1)) (ihr (level + 1)), substitute,
      depth_binary]
    congr 1
    omega

end Formula

namespace Node
variable {m : List (String × Node)} {root : Node}

theorem elim_lookup_formulas (m : List (String × Node)) (name : String) (b : β)
    (g : Formula → β) :
    ((formulas m).lookup name).elim b g = (m.lookup name).elim b fun n => g n.formula := by
  rw [lookup_formulas]
  cases m.lookup name <;> rfl

/-- The names of a substituted formula are those that the names of the formula become, in their
order, each at its first occurrence. -/
theorem atoms_value_substitute (ha : Allocated (root.nodes ++ nodesOf m) next) (l : Logger) :
    ((root.substitute m next).value l).1.formula.atoms =
      (root.formula.atoms.flatMap fun name =>
        (m.lookup name).elim [name] fun n => n.formula.atoms).eraseDups := by
  rw [Substituter.formula_value_substitute ha (List.subset_append_left _ _)
    (List.subset_append_right _ _) l, Formula.atoms_substitute]
  simp only [elim_lookup_formulas]

theorem atoms_value_substitute_overlapping :
    let y := Node.atom 1 "y"
    let z := Node.atom 2 "z"
    let root := Node.binary 5 (.binary 4 (.atom 0 "x") .plus y) .less (.binary 3 z .plus y)
    let m := [("x", Node.binary 7 (.atom 6 "w") .minus z), ("y", Node.binary 8 z .minus y)]
    Allocated (root.nodes ++ nodesOf m) 9 ∧ root.formula.atoms = ["x", "y", "z"] ∧
      ((root.substitute m 9).value .initial).1.formula.atoms = ["w", "z", "y"] := by
  intro y z root m
  have ha : Allocated (root.nodes ++ nodesOf m) 9 := by decide
  refine ⟨ha, by decide, ?_⟩
  rw [atoms_value_substitute ha]
  decide

/-- Each occurrence of a replaced name adds the operators of its formula, and the deepest way goes
down to an atom and on into what replaces it. -/
theorem counts_depth_value_substitute (ha : Allocated (root.nodes ++ nodesOf m) next)
    (l : Logger) :
    let result := ((root.substitute m next).value l).1.formula
    let leaves := root.formula.leaves 0
    (∀ op, result.counts.count op = root.formula.counts.count op +
      ((leaves.filterMap fun leaf => m.lookup leaf.2).map
        fun n => n.formula.counts.count op).sum) ∧
      (leaves.map fun leaf =>
        leaf.1 + (m.lookup leaf.2).elim 0 fun n => n.formula.depth).max? = some result.depth := by
  intro result leaves
  have hresult : result = root.formula.substitute (formulas m) :=
    Substituter.formula_value_substitute ha (List.subset_append_left _ _)
      (List.subset_append_right _ _) l
  constructor
  · intro op
    have hgrafts : (leaves.filterMap fun leaf => (formulas m).lookup leaf.2) =
        (leaves.filterMap fun leaf => m.lookup leaf.2).map formula := by
      simp only [lookup_formulas, List.map_filterMap]
    simp only [hresult, Formula.count_counts, Formula.count_substitute _ op 0]
    rw [hgrafts, List.map_map]
    rfl
  · have hdepth := Formula.max?_depth_substitute (m := formulas m) root.formula 0
    rw [← hresult, Nat.zero_add] at hdepth
    simpa only [elim_lookup_formulas] using hdepth

theorem counts_depth_value_substitute_shared :
    let x := Node.atom 0 "x"
    let y := Node.atom 1 "y"
    let sum := Node.binary 2 x .plus y
    let root := Node.binary 4 sum .multiplication (.binary 3 sum .plus y)
    let m := [("x", Node.binary 6 (.binary 5 x .minus x) .minus y)]
    let result := ((root.substitute m 7).value .initial).1.formula
    Allocated (root.nodes ++ nodesOf m) 7 ∧ root.formula.counts.count .minus = 0 ∧
      result.counts.count .minus = 4 ∧ result.depth = 5 := by
  intro x y sum root m result
  have ha : Allocated (root.nodes ++ nodesOf m) 7 := by decide
  obtain ⟨hcounts, hdepth⟩ := counts_depth_value_substitute ha .initial
  refine ⟨ha, by decide, (hcounts .minus).trans (by decide), ?_⟩
  exact Option.some.inj (hdepth.symm.trans (by decide))

end Node

end Formulary
