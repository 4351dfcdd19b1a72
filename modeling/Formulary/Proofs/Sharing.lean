import Formulary.Proofs.Memory

/-!
# What substitution shares

Going down from a node and from its result side by side (`Node.Alongside`), one meets pairs of a
node and what has become of it. A node has become itself, and not a copy of itself, if and only if
no name below it is replaced (`Node.Substituted.id_eq_iff`), as long as no replacement is a node
that was there from the start. Everything else is a replacement or a new node
(`Node.substitute_shares_untouched`), and the changes that a session reports are just these
(`Session.State.substitute_answer_changes`).
-/

namespace Formulary
namespace Node

/-- Going down from `root` and `result` side by side, to the left or to the right as long as both
nodes are binary, leads to these two nodes. -/
inductive Alongside (root result : Node) : Node → Node → Prop
  | root : Alongside root result root result
  | left : Alongside root result (.binary i left op right) (.binary j l op' r) →
    Alongside root result left l
  | right : Alongside root result (.binary i left op right) (.binary j l op' r) →
    Alongside root result right r

/-- No atom of the node has a name that `m` replaces. -/
def Untouched (m : List (String × Node)) (n : Node) : Prop :=
  n.formula.EveryName (· ∉ m.map Prod.fst)

instance (m : List (String × Node)) (n : Node) : Decidable (Untouched m n) :=
  inferInstanceAs (Decidable (n.formula.EveryName (· ∉ m.map Prod.fst)))

/-- The changes that replacing names calls for. -/
def changesBy (m : List (String × Node)) : Node → List Change
  | n@(.atom _ _) => if Untouched m n then [.kept] else [.replaced]
  | n@(.binary _ left _ right) =>
    if Untouched m n then [.kept] else .rebuilt :: (left.changesBy m ++ right.changesBy m)

/-- The node `r` in the place of `n`, where the nodes of `memory` were there before: the same node
if nothing below it is replaced, and else a replacement or a new node with the same operator. -/
structure Shares (m : List (String × Node)) (memory : List Node) (n r : Node) : Prop where
  same : r.id = n.id ↔ Untouched m n
  kept : Untouched m n → r = n
  replaced : ¬ Untouched m n → n = .atom i name → m.lookup name = some r
  rebuilt : ¬ Untouched m n → n = .binary i left op right →
    (∃ j l r', r = .binary j l op r') ∧ ∀ x ∈ memory, r.id ≠ x.id

variable {m : List (String × Node)} {n r root result : Node}

@[simp] theorem untouched_atom {i : Nat} {name : String} :
    Untouched m (.atom i name) ↔ m.lookup name = none := by
  have h : m.lookup name = none ↔ ∀ p ∈ m, name ≠ p.1 := by simp [List.lookup_eq_none_iff]
  rw [h, Untouched, formula, Formula.EveryName]
  simp only [List.mem_map, not_exists, not_and]
  exact forall₂_congr fun p _ => ne_comm

@[simp] theorem untouched_binary {i : Nat} {left right : Node} {op : Operator} :
    Untouched m (.binary i left op right) ↔ Untouched m left ∧ Untouched m right := Iff.rfl

namespace Substituted

/-- What has become of the children of a node that is binary before and after. -/
theorem children (H : Substituted m first (.binary i left op right) (.binary j l op' r)) :
    Substituted m first left l ∧ Substituted m first right r ∧ op' = op := by
  cases H with
  | kept hl hr => exact ⟨hl, hr, rfl⟩
  | rebuilt hl hr => exact ⟨hl, hr, rfl⟩

theorem alongside (H : Substituted m first root result) (h : Alongside root result n r) :
    Substituted m first n r ∧ n.nodes ⊆ root.nodes := by
  induction h with
  | root => exact ⟨H, List.Subset.refl _⟩
  | left _ ih => exact ⟨ih.1.children.1, fun x hx => ih.2 (by simp [hx])⟩
  | right _ ih => exact ⟨ih.1.children.2.1, fun x hx => ih.2 (by simp [hx])⟩

/-- A node becomes itself if and only if nothing below it is replaced. -/
theorem eq_iff (H : Substituted m first n r) (hn : n.nodes ⊆ ns) (hm : ∀ p ∈ m, p.2 ∉ ns) :
    r = n ↔ Untouched m n := by
  induction H with
  | atom h => simp [h]
  | @replaced name r i h =>
    obtain ⟨before, after, rfl, -⟩ := List.lookup_eq_some_iff.mp h
    have hne : r ≠ .atom i name := by
      rintro rfl
      exact hm (name, .atom i name) (by simp) (hn (mem_nodes_self _))
    simp [hne, h]
  | kept _ _ ihl ihr =>
    have hl := ihl fun x hx => hn (by simp [hx])
    have hr := ihr fun x hx => hn (by simp [hx])
    rw [untouched_binary, ← hl, ← hr]
    simp
  | rebuilt _ _ hne _ ihl ihr =>
    have hl := ihl fun x hx => hn (by simp [hx])
    have hr := ihr fun x hx => hn (by simp [hx])
    rw [untouched_binary, ← hl, ← hr]
    refine ⟨fun h => ?_, fun h => (hne h).elim⟩
    injection h with _ h _ h'
    exact ⟨h, h'⟩

section
variable (ha : Allocated ns first) (hroot : root.nodes ⊆ ns) (hmns : nodesOf m ⊆ ns)
  (hm : ∀ p ∈ m, p.2 ∉ root.nodes)
include ha hroot hmns hm

/-- The same of identities: in memory, the same identity means the same node. -/
theorem id_eq_iff (H : Substituted m first n r) (hn : n.nodes ⊆ root.nodes) :
    r.id = n.id ↔ Untouched m n := by
  have hmem : n ∈ ns := hroot (hn n.mem_nodes_self)
  rw [← H.eq_iff hn hm]
  exact ⟨H.eq_of_id_eq ha hmem hmns, congrArg Node.id⟩

theorem shares (H : Substituted m first n r) (hn : n.nodes ⊆ root.nodes) : Shares m ns n r where
  same := H.id_eq_iff ha hroot hmns hm hn
  kept := (H.eq_iff hn hm).mpr
  replaced ht h := by
    subst h
    cases H with
    | atom h => exact absurd (untouched_atom.mpr h) ht
    | replaced h => exact h
  rebuilt ht h := by
    subst h
    cases H with
    | kept hl hr => exact absurd ((eq_iff (.kept hl hr) hn hm).mp rfl) ht
    | @rebuilt _ l _ r' j _ _ _ _ _ hj =>
      refine ⟨⟨j, l, r', rfl⟩, fun x hx => ?_⟩
      have hlt := ha.lt_next x hx
      rw [id_binary]
      omega

/-- The changes that one sees going down are those that are called for. -/
theorem changes_eq (H : Substituted m first n r) (hn : n.nodes ⊆ root.nodes) :
    n.changes r = n.changesBy m := by
  have hid := H.id_eq_iff ha hroot hmns hm hn
  induction H with
  | atom h => simp [changes, changesBy, h]
  | @replaced name r i h =>
    have hne : i ≠ r.id := fun e => by simp [← e, h] at hid
    simp [changes, changesBy, h, hne]
  | kept => rw [changes, if_pos rfl, changesBy, if_pos (hid.mp rfl)]
  | @rebuilt left l right r j i op hl hr hne hfirst ihl ihr =>
    have hnl : left.nodes ⊆ root.nodes := fun x hx => hn (by simp [hx])
    have hnr : right.nodes ⊆ root.nodes := fun x hx => hn (by simp [hx])
    have hij : i ≠ j := by
      have hlt : i < first := ha.lt_next _ (hroot (hn (mem_nodes_self _)))
      omega
    have ht : ¬ Untouched m (.binary i left op right) := fun h => hij (hid.mpr h).symm
    rw [changes, id_binary, id_binary, if_neg hij, changesBy, if_neg ht,
      ihl hnl (hl.id_eq_iff ha hroot hmns hm hnl), ihr hnr (hr.id_eq_iff ha hroot hmns hm hnr)]

end
end Substituted

/-- Wherever one gets to in a node and in its result, the very same node stands there if and only
if no name below it is replaced. Other atoms give way to their replacements, even to equal ones,
and other binary nodes to new ones. -/
theorem substitute_shares_untouched (ha : Allocated memory next) (hroot : root.nodes ⊆ memory)
    (hmns : nodesOf m ⊆ memory) (hm : ∀ p ∈ m, p.2 ∉ root.nodes) (l : Logger) :
    let result := ((root.substitute m next).value l).1
    (result.id = root.id ↔ Untouched m root) ∧
      ∀ n r, Alongside root result n r → Shares m memory n r := by
  intro result
  have H : Substituted m next root result :=
    (Substituter.substitute_spec (s := .new m) ha hroot hmns).1
  refine ⟨H.id_eq_iff ha hroot hmns hm (List.Subset.refl _), fun n r h => ?_⟩
  obtain ⟨Hn, hn⟩ := H.alongside h
  exact Hn.shares ha hroot hmns hm hn

theorem substitute_shares_untouched_equal :
    let x := Node.atom 0 "x"
    let y := Node.atom 1 "y"
    let sum := Node.binary 2 y .plus y
    let root := Node.binary 4 (.binary 3 x .minus sum) .less sum
    let m := [("x", Node.atom 5 "x")]
    let memory := root.nodes ++ nodesOf m
    let result := ((root.substitute m 6).value .initial).1
    Allocated memory 6 ∧ (∀ p ∈ m, p.2 ∉ root.nodes) ∧
      result.formula = root.formula ∧ result.id ≠ root.id ∧ Alongside root result sum sum ∧
      ∃ left, Alongside root result (.binary 3 x .minus sum) left ∧
        ∀ n ∈ memory, left.id ≠ n.id := by
  intro x y sum root m memory result
  have ha : Allocated memory 6 := by decide
  have hm : ∀ p ∈ m, p.2 ∉ root.nodes := by decide
  have hroot : root.nodes ⊆ memory := List.subset_append_left _ _
  have hmns : nodesOf m ⊆ memory := List.subset_append_right _ _
  obtain ⟨hid, H⟩ := substitute_shares_untouched ha hroot hmns hm .initial
  have hleft : Alongside root result (.binary 3 x .minus sum) _ := .left .root
  have hformula : result.formula = root.formula := by decide
  refine ⟨ha, hm, hformula, fun h => ?_, .right .root, _, hleft, ?_⟩
  · exact absurd (hid.mp h) (by decide)
  · exact ((H _ _ hleft).rebuilt (by decide) rfl).2

end Node

namespace Session.State
open Node
variable {s : State}

/-- Where no replacement is a node of the root, the answer to a substitution says of every node
whether it has a name below it that is replaced. -/
theorem substitute_answer_changes (ha : Allocated (memory s.registry) s.next)
    (hb : (Build.node s.registry b).value s.next s.logger = (.ok n, next₁))
    (hm : (Build.mapping s.registry m).value next₁ s.logger = (.ok ns, next₂))
    (hns : ∀ p ∈ ns, p.2 ∉ n.nodes) :
    (s.step (.query (.substitute b m))).1 = .answered (.substituted
      (n.formula.substitute (formulas ns)) (decide (Untouched ns n)) (n.changesBy ns)) := by
  have hn := (Build.allocates_node s.registry b).allocated (List.Subset.refl _) ha hb
  have hall := (Build.allocates_mapping s.registry m).allocated (List.subset_append_left _ _) hn hm
  have hroot : n.nodes ⊆ memory s.registry ++ n.nodes ++ nodesOf ns :=
    List.subset_append_of_subset_left _ (List.subset_append_right _ _)
  have hmns : nodesOf ns ⊆ memory s.registry ++ n.nodes ++ nodesOf ns :=
    List.subset_append_right _ _
  let result := ((Substituter.new ns).substitute next₂ n).1
  have H : Substituted ns next₂ n result :=
    (Substituter.substitute_spec (s := .new ns) hall hroot hmns).1
  have hself := List.Subset.refl n.nodes
  have hsame : (result.id == n.id) = decide (Untouched ns n) := by
    rw [Bool.eq_iff_iff, beq_iff_eq, decide_eq_true_iff]
    exact H.id_eq_iff hall hroot hmns hns hself
  have hrun : ((Query.substitute b m).run s.registry).value s.next s.logger = _ :=
    (Build.value_bind _ hb).trans (Build.value_bind _ hm)
  rw [← hsame, ← H.changes_eq hall hroot hmns hns hself, ← H.formula]
  exact (step_query hrun).1

end Session.State
end Formulary
