import Formulary.Proofs.Memory
import Formulary.Proofs.Traversals

/-!
# Analysers used again

Collector, printer and substituter start over with each formula. What an earlier one has left in
them does not show, not even the results of nodes whose identities have passed to other nodes since
then: the results are those of new analysers (`Session.Analysers.reuse_eq_afresh`). A printer that
does not start over, as below the root of a formula, goes on at its level and comes back to it
(`OutlinePrinter.lines_walk`).
-/

namespace Formulary

theorem OutlinePrinter.lines_walk (p : OutlinePrinter) (f : Formula) :
    (p.walk f).lines = p.lines ++
      (f.levelled 0).map fun l => Text.spaces (2 * (p.level + l.1)) ++ l.2.text := by
  have hlevelled := f.levelled_add p.level 0
  rw [Nat.add_zero] at hlevelled
  rw [walk_eq, hlevelled, List.map_map]
  rfl

theorem OutlinePrinter.level_walk (p : OutlinePrinter) (f : Formula) :
    (p.walk f).level = p.level := by
  rw [walk_eq]

namespace Substituter

/-- Whatever there is in the memo, the mapping stays. -/
theorem mapping_walk (s : Substituter) (next : Nat) (n : Node) :
    (s.walk next n).2.1.mapping = s.mapping := by
  induction n generalizing s next with
  | atom i name =>
    cases h : s.memo.lookup i with
    | some r => rw [walk_of_lookup (n := .atom i name) h]
    | none => rw [walk_atom h]; rfl
  | binary i left op right ihl ihr =>
    cases h : s.memo.lookup i with
    | some r => rw [walk_of_lookup (n := .binary i left op right) h]
    | none =>
      rcases hl : s.walk next left with ⟨l, s₁, next₁⟩
      rcases hr : s₁.walk next₁ right with ⟨r, s₂, next₂⟩
      have hmapping₁ := ihl s next
      have hmapping₂ := ihr s₁ next₁
      rw [hl] at hmapping₁
      rw [hr] at hmapping₂
      by_cases hid : l.id = left.id ∧ r.id = right.id
      · rw [walk_kept h hl hr hid]
        exact hmapping₂.trans hmapping₁
      · rw [walk_rebuilt h hl hr hid]
        exact hmapping₂.trans hmapping₁

/-- After a substitution a substituter is as good as new. -/
theorem substitute_snd_fst (s : Substituter) (next : Nat) (n : Node) :
    (s.substitute next n).2.1 = new s.mapping := by
  have hmapping : (s.clear.walk next n).2.1.mapping = s.mapping := mapping_walk _ next n
  change new (s.clear.walk next n).2.1.mapping = _
  rw [hmapping]

end Substituter

namespace Session
open Node

/-- What new analysers find in one formula after another; only the identities of new nodes go
on. -/
def Analysers.afresh (m : List (String × Node)) (next : Nat) : List Node → List Reused
  | [] => []
  | n :: ns =>
    let (result, _, next) := (Substituter.new m).substitute next n
    ⟨n.formula.atoms, n.formula.outline, result.formula, n.changes result⟩ :: afresh m next ns

namespace Analysers

/-- What is found in the first formula does not depend on what has been found before. -/
theorem reuse_cons (a : Analysers) (next : Nat) (n : Node) (ns : List Node) :
    ∃ a' : Analysers, a'.substituter = .new a.substituter.mapping ∧
      a.reuse next (n :: ns) =
        let q := (Substituter.new a.substituter.mapping).substitute next n
        ⟨n.formula.atoms, n.formula.outline, q.1.formula, n.changes q.1⟩ :: a'.reuse q.2.2 ns := by
  let a' : Analysers := ⟨(a.collector.collect n.formula).2, (a.printer.outline n.formula).2,
    (a.substituter.substitute next n).2.1⟩
  exact ⟨a', Substituter.substitute_snd_fst _ next n, rfl⟩

/-- The same analysers find in each formula what new ones find. -/
theorem reuse_eq_afresh (a : Analysers) (next : Nat) (ns : List Node) :
    a.reuse next ns = afresh a.substituter.mapping next ns := by
  induction ns generalizing a next with
  | nil => rfl
  | cons n ns ih =>
    obtain ⟨a', hnew, hreuse⟩ := a.reuse_cons next n ns
    have hrest := ih a' ((Substituter.new a.substituter.mapping).substitute next n).2.2
    rw [hnew] at hrest
    rw [hreuse]
    exact congrArg (List.cons _) hrest

/-- In memory this is what the analyses without a state find, whatever the formulas share. -/
theorem map_afresh {m : List (String × Node)} {ns : List Node} (ha : Allocated old next)
    (hm : nodesOf m ⊆ old) (hns : ∀ n ∈ ns, n.nodes ⊆ old) :
    (afresh m next ns).map (fun r => (r.atoms, r.outline, r.result)) =
      ns.map fun n =>
        (n.formula.atoms, n.formula.outline, n.formula.substitute (formulas m)) := by
  induction ns generalizing next with
  | nil => rfl
  | cons n ns ih =>
    obtain ⟨H, hle, -⟩ :=
      Substituter.substitute_spec (s := .new m) ha (hns n List.mem_cons_self) hm
    have ih := ih (ha.mono (List.Subset.refl _) hle) fun n' hn' =>
      hns n' (List.mem_cons_of_mem n hn')
    rw [afresh, List.map_cons, List.map_cons, ih, H.formula]
    rfl

/-- From whatever state, each analyser returns what a new one returns, and so it does in turn for
any formulas. A printer that goes on from its state comes back to its level, and has added a line
for each node, indented by that level and the depth of the node. -/
theorem clean_from_any_state (a : Analysers) (f : Formula) (n : Node) (next : Nat)
    (ns : List Node) :
    (a.collector.collect f).1 = (AtomCollector.empty.collect f).1 ∧
      (a.printer.outline f).1 = (OutlinePrinter.empty.outline f).1 ∧
      (a.substituter.substitute next n).1 =
        ((Substituter.new a.substituter.mapping).substitute next n).1 ∧
      (a.substituter.substitute next n).2.1.memo = [] ∧
      (a.printer.walk f).level = a.printer.level ∧
      (a.printer.walk f).lines = a.printer.lines ++
        (f.levelled 0).map (fun l => Text.spaces (2 * (a.printer.level + l.1)) ++ l.2.text) ∧
      (f.levelled 0).map Prod.snd = f.preorder ∧
      a.reuse next ns = afresh a.substituter.mapping next ns := by
  refine ⟨rfl, rfl, rfl, ?_, a.printer.level_walk f, a.printer.lines_walk f,
    f.map_snd_levelled 0, a.reuse_eq_afresh next ns⟩
  rw [Substituter.substitute_snd_fst]
  rfl

end Analysers

/-- In a session the answer is what the analyses without a state find, whatever the formulas and
the mapping share. -/
theorem State.reuse_answer {s : State} (ha : Allocated (memory s.registry) s.next)
    (hm : (Build.mapping s.registry m).value s.next s.logger = (.ok ms, next₁))
    (hb : Build.value (bs.mapM (Build.node s.registry)) next₁ s.logger = (.ok ns, next₂)) :
    ∃ rs, (s.step (.query (.reuse bs m))).1 = .answered (.reused rs) ∧
      rs.map (fun r => (r.atoms, r.outline, r.result)) = ns.map fun n =>
        (n.formula.atoms, n.formula.outline, n.formula.substitute (formulas ms)) := by
  have hmapping :=
    (Build.allocates_mapping s.registry m).allocated (List.Subset.refl _) ha hm
  have hnodes := (Build.Allocates.mapM (Build.allocates_node s.registry) bs).allocated
    (List.subset_append_left _ _) hmapping hb
  have hrun : ((Query.reuse bs m).run s.registry).value s.next s.logger = _ :=
    (Build.value_bind _ hm).trans (Build.value_bind _ hb)
  refine ⟨_, (step_query hrun).1, ?_⟩
  rw [Analysers.reuse_eq_afresh]
  refine Analysers.map_afresh hnodes ?_ fun n hn => ?_
  · exact List.subset_append_of_subset_left _ (List.subset_append_right _ _)
  · exact List.subset_append_of_subset_right _ fun x hx =>
      List.mem_flatMap_of_mem hn hx

end Session
end Formulary
