import Formulary.Proofs.Substitution

/-!
# Substitutions one after the other

Two substitutions in a row are one substitution, by the mapping in which the second has been carried
out in the values of the first and which else goes on as the second (`Formula.substitute_compose`).
The names that the first brings in are left to the second, and a name that both replace is gone
before the second comes to it. In memory the composed mapping is made by substituting in its nodes
one after another (`Node.compose`), and neither what is shared nor where the new nodes go matters
for the formula (`Node.formula_substitute_substitute`).
-/

namespace Formulary

namespace Formula

/-- Substitute by `m₁` and then by `m₂`. -/
def compose (m₁ m₂ : List (String × Formula)) : List (String × Formula) :=
  (m₁.map fun p => (p.1, p.2.substitute m₂)) ++ m₂

variable {m₁ m₂ : List (String × Formula)}

theorem lookup_compose (name : String) :
    (compose m₁ m₂).lookup name = ((m₁.lookup name).map (substitute m₂)).or (m₂.lookup name) := by
  rw [compose, List.lookup_append, lookup_map_values]

theorem substitute_compose (f : Formula) :
    f.substitute (compose m₁ m₂) = (f.substitute m₁).substitute m₂ := by
  induction f with
  | atom name =>
    rw [substitute, substitute, lookup_compose]
    cases m₁.lookup name with
    | none => rfl
    | some g => rfl
  | binary left op right ihl ihr => rw [substitute, substitute, substitute, ihl, ihr]

end Formula

namespace Node

/-- Substitute by `m` in the nodes of a mapping, one after another. -/
def substituteValues (m : List (String × Node)) (next : Nat) :
    List (String × Node) → Logged (List (String × Node) × Nat)
  | [] => return ([], next)
  | (name, n) :: entries => do
    let (result, next) ← n.substitute m next
    let (results, next) ← substituteValues m next entries
    return ((name, result) :: results, next)

/-- Make the mapping that substitutes by `m₁` and then by `m₂`. -/
def compose (m₁ m₂ : List (String × Node)) (next : Nat) :
    Logged (List (String × Node) × Nat) := do
  let (results, next) ← substituteValues m₂ next m₁
  return (results ++ m₂, next)

variable {m m₁ m₂ : List (String × Node)} {root once : Node}

theorem value_substituteValues_cons {entries : List (String × Node)} (l : Logger) :
    (substituteValues m next ((name, n) :: entries)).value l =
      let q := (Substituter.new m).substitute next n
      let p := (substituteValues m q.2.2 entries).value l
      ((name, q.1) :: p.1, p.2) := rfl

theorem substituteValues_spec {entries : List (String × Node)} (ha : Allocated ns next)
    (hm : nodesOf m ⊆ ns) (he : nodesOf entries ⊆ ns) (l : Logger) :
    let p := (substituteValues m next entries).value l
    formulas p.1 = (formulas entries).map (fun p => (p.1, p.2.substitute (formulas m))) ∧
      Allocated (ns ++ nodesOf p.1) p.2 := by
  induction entries generalizing ns next with
  | nil =>
    refine ⟨rfl, ?_⟩
    change Allocated (ns ++ []) next
    rwa [List.append_nil]
  | cons e entries ih =>
    obtain ⟨name, n⟩ := e
    have hn : n.nodes ⊆ ns := fun x hx => he (List.mem_append_left _ hx)
    have he : nodesOf entries ⊆ ns := fun x hx => he (List.mem_append_right _ hx)
    obtain ⟨H, -, hresult⟩ := Substituter.substitute_spec (s := .new m) ha hn hm
    -- the result for `n` is in memory when the next node is substituted in
    obtain ⟨hformulas, hall⟩ := ih hresult (List.subset_append_of_subset_left _ hm)
      (List.subset_append_of_subset_left _ he)
    rw [value_substituteValues_cons]
    refine ⟨?_, by rwa [List.append_assoc] at hall⟩
    change (name, ((Substituter.new m).substitute next n).1.formula) :: formulas _ = _
    rw [hformulas, H.formula]
    rfl

/-- A composed mapping stands for the composition of the formulas, and is in memory. -/
theorem compose_spec (ha : Allocated ns next) (hm₁ : nodesOf m₁ ⊆ ns) (hm₂ : nodesOf m₂ ⊆ ns)
    (l : Logger) :
    let p := (compose m₁ m₂ next).value l
    formulas p.1 = Formula.compose (formulas m₁) (formulas m₂) ∧
      Allocated (ns ++ nodesOf p.1) p.2 := by
  intro p
  obtain ⟨hformulas, hall⟩ := substituteValues_spec ha hm₂ hm₁ l
  have hp : p.1 = ((substituteValues m₂ next m₁).value l).1 ++ m₂ := rfl
  refine ⟨?_, hall.mono ?_ (Nat.le_refl _)⟩
  · rw [hp, formulas, List.map_append]
    exact congrArg (· ++ formulas m₂) hformulas
  · rw [hp, nodesOf, List.flatMap_append, ← List.append_assoc]
    exact List.append_subset.mpr ⟨List.Subset.refl _, List.subset_append_of_subset_left _ hm₂⟩

/-- Substituting by `m₁` and then, at any time later, by `m₂` gives the formula of one substitution
by the mapping that has for each name of `m₁` what `m₂` makes of its node, and for each other name
of `m₂` the node that `m₂` has. -/
theorem formula_substitute_substitute (ha : Allocated memory next) (hroot : root.nodes ⊆ memory)
    (hm₁ : nodesOf m₁ ⊆ memory) (l : Logger)
    (honce : ((root.substitute m₁ next).value l).1 = once) (ha' : Allocated memory' next')
    (hmemory : memory ++ once.nodes ⊆ memory') (hm₂ : nodesOf m₂ ⊆ memory') :
    let m := (compose m₁ m₂ next').value l
    (∀ name, (m.1.lookup name).map formula =
      ((m₁.lookup name).map fun n => ((n.substitute m₂ next').value l).1.formula).or
        ((m₂.lookup name).map formula)) ∧
    ((once.substitute m₂ next').value l).1.formula =
      ((root.substitute m.1 m.2).value l).1.formula := by
  intro m
  obtain ⟨hold, honce'⟩ := List.append_subset.mp hmemory
  have hm₁' : nodesOf m₁ ⊆ memory' := List.Subset.trans hm₁ hold
  obtain ⟨hformulas, hall⟩ : formulas m.1 = Formula.compose (formulas m₁) (formulas m₂) ∧ _ :=
    compose_spec ha' hm₁' hm₂ l
  constructor
  · intro name
    rw [← lookup_formulas, hformulas, Formula.lookup_compose, lookup_formulas, lookup_formulas]
    cases hn : m₁.lookup name with
    | none => rfl
    | some n =>
      have hsub := List.Subset.trans (nodes_subset_of_lookup hn) hm₁'
      simp only [Option.map_some, Option.some_or,
        Substituter.formula_value_substitute ha' hsub hm₂]
  · have hsub : root.nodes ⊆ memory' := List.Subset.trans hroot hold
    calc ((once.substitute m₂ next').value l).1.formula
      _ = once.formula.substitute (formulas m₂) :=
        Substituter.formula_value_substitute ha' honce' hm₂ l
      _ = (root.formula.substitute (formulas m₁)).substitute (formulas m₂) := by
        rw [← honce, Substituter.formula_value_substitute ha hroot hm₁]
      _ = root.formula.substitute (formulas m.1) := by
        rw [hformulas, Formula.substitute_compose]
      _ = ((root.substitute m.1 m.2).value l).1.formula :=
        (Substituter.formula_value_substitute hall (List.subset_append_of_subset_left _ hsub)
          (List.subset_append_right _ _) l).symm

theorem formula_substitute_substitute_cycle :
    let x := Node.atom 0 "x"
    let y := Node.atom 1 "y"
    let sum := Node.binary 2 x .plus y
    let root := Node.binary 3 sum .less sum
    let m₁ := [("x", y), ("y", sum)]
    let once := ((root.substitute m₁ 4).value .initial).1
    let memory := root.nodes ++ nodesOf m₁
    let m₂ := [("y", x), ("x", once), ("z", x)]
    let m := (compose m₁ m₂ 6).value .initial
    Allocated memory 4 ∧ Allocated (memory ++ once.nodes) 6 ∧ nodesOf m₂ ⊆ memory ++ once.nodes ∧
      once.formula.render = "((y + (x + y)) < (y + (x + y)))" ∧
      (m.1.lookup "x").map formula = some (.atom "x") ∧
      ((root.substitute m.1 m.2).value .initial).1.formula.render =
        "((x + (((y + (x + y)) < (y + (x + y))) + x)) < " ++
          "(x + (((y + (x + y)) < (y + (x + y))) + x)))" := by
  intro x y sum root m₁ once memory m₂ m
  have ha : Allocated memory 4 := by decide
  have ha' : Allocated (memory ++ once.nodes) 6 := by decide
  have hm₂ : nodesOf m₂ ⊆ memory ++ once.nodes := by decide
  obtain ⟨hlookup, h⟩ := formula_substitute_substitute ha (List.subset_append_left _ _)
    (List.subset_append_right _ _) .initial rfl ha' (List.Subset.refl _) hm₂
  refine ⟨ha, ha', hm₂, by decide, (hlookup "x").trans (by decide), ?_⟩
  rw [← h]
  decide

end Node

end Formulary
