import Formulary.Proofs.Substitution
import Formulary.Session

/-!
# The memory of a session

However a session builds its nodes, from texts, from registered nodes or by substitution, they
share parts only as the same nodes in memory: an identity never comes with two contents
(`Session.State.allocated_run`). So what is said of substitution in memory is true of every
answer of a session (`Session.State.substitute_answer`).
-/

namespace Formulary

theorem Node.Allocated.build (ha : Allocated ns next) (f : Formula) :
    Allocated (ns ++ (Node.build next f).1.nodes) (Node.build next f).2 := by
  induction f generalizing ns next with
  | atom name =>
    refine (ha.cons (n := .atom next name) rfl).mono (fun x hx => ?_) (Nat.le_refl _)
    simpa [Node.build, or_comm] using hx
  | binary left op right ihl ihr =>
    -- the root is built last, with the identity after those of its children
    let n := (Node.build next (.binary left op right)).1
    refine ((ihr (ihl ha)).cons (n := n) rfl).mono (fun x hx => ?_) (Nat.le_refl _)
    simp only [n, Node.build, nodes_binary, List.mem_append, List.mem_cons] at hx ⊢
    grind

namespace Session
open Node

/-- What a computation comes to if the next new node has the identity `next`, and the next
identity afterwards. -/
def Build.value (x : Build α) (next : Nat) (l : Logger) : Except Failure α × Nat :=
  ((x.run).run next).value l

/-- A computation that starts with the nodes `old` in memory keeps the memory in order, and the
nodes `nodes a` of its result are in memory afterwards. -/
structure Build.Allocates (old : List Node) (nodes : α → List Node) (x : Build α) : Prop where
  le : old ⊆ ns → Allocated ns next → x.value next l = (result, next') → next ≤ next'
  allocated : old ⊆ ns → Allocated ns next → x.value next l = (.ok a, next') →
    Allocated (ns ++ nodes a) next'

namespace Build

theorem value_bind {x : Build α} (f : α → Build β) (h : x.value next l = (.ok a, next')) :
    (x >>= f).value next l = (f a).value next' l := by
  have hrun : (x >>= f).value next l =
      ((ExceptT.bindCont f (x.value next l).1).run (x.value next l).2).value l := rfl
  rw [hrun, h]
  rfl

theorem value_bind_error {x : Build α} (f : α → Build β)
    (h : x.value next l = (.error e, next')) : (x >>= f).value next l = (.error e, next') := by
  have hrun : (x >>= f).value next l =
      ((ExceptT.bindCont f (x.value next l).1).run (x.value next l).2).value l := rfl
  rw [hrun, h]
  rfl

end Build

namespace Build.Allocates
variable {old : List Node} {nodes : α → List Node} {nodes' : β → List Node}

theorem pure {a : α} (h : nodes a ⊆ old) : Allocates old nodes (pure a) where
  le _ _ hrun := by
    cases hrun
    exact Nat.le_refl _
  allocated hold ha hrun := by
    cases hrun
    refine ha.mono (List.append_subset.mpr ⟨List.Subset.refl _, ?_⟩) (Nat.le_refl _)
    exact List.Subset.trans h hold

theorem throw (e : Failure) : Allocates old nodes (throw e) where
  le _ _ hrun := by
    cases hrun
    exact Nat.le_refl _
  allocated _ _ hrun := by cases hrun

/-- Without new nodes there are no new identities. -/
theorem of_value {x : Build α} {v : Nat → Logger → α}
    (h : ∀ next l, x.value next l = (.ok (v next l), next)) :
    Allocates old (fun _ => []) x where
  le _ _ hrun := by
    rw [h] at hrun
    cases hrun
    exact Nat.le_refl _
  allocated _ ha hrun := by
    rw [h] at hrun
    cases hrun
    rw [List.append_nil]
    exact ha

theorem logged (x : Logged α) : Allocates old (fun _ => []) (logged x) :=
  of_value (v := fun _ l => x.value l) fun _ _ => rfl

theorem get : Allocates old (fun _ => []) (get : Build Nat) :=
  of_value (v := fun next _ => next) fun _ _ => rfl

/-- What comes next starts with the nodes of the result too. -/
theorem bind {x : Build α} {f : α → Build β} (H : Allocates old nodes x)
    (Hf : ∀ a, Allocates (old ++ nodes a) nodes' (f a)) : Allocates old nodes' (x >>= f) where
  le {ns next l result next'} hold ha hrun := by
    rcases hx : x.value next l with ⟨e | a, next₁⟩
    · rw [value_bind_error f hx] at hrun
      cases hrun
      exact H.le hold ha hx
    · rw [value_bind f hx] at hrun
      have hsub : old ++ nodes a ⊆ ns ++ nodes a := List.append_subset.mpr
        ⟨List.subset_append_of_subset_left _ hold, List.subset_append_right _ _⟩
      exact Nat.le_trans (H.le hold ha hx) ((Hf a).le hsub (H.allocated hold ha hx) hrun)
  allocated {ns next l b next'} hold ha hrun := by
    rcases hx : x.value next l with ⟨e | a, next₁⟩
    · rw [value_bind_error f hx] at hrun
      cases hrun
    · rw [value_bind f hx] at hrun
      have hsub : old ++ nodes a ⊆ ns ++ nodes a := List.append_subset.mpr
        ⟨List.subset_append_of_subset_left _ hold, List.subset_append_right _ _⟩
      refine ((Hf a).allocated hsub (H.allocated hold ha hx) hrun).mono ?_ (Nat.le_refl _)
      rw [List.append_assoc]
      exact List.append_subset.mpr ⟨List.subset_append_left _ _,
        List.subset_append_of_subset_right _ (List.subset_append_right _ _)⟩

theorem mono {x : Build α} (H : Allocates old nodes x) (h : old ⊆ old') :
    Allocates old' nodes x where
  le hold := H.le (List.Subset.trans h hold)
  allocated hold := H.allocated (List.Subset.trans h hold)

theorem append {x : Build α} (H : Allocates old nodes x) (ns : List Node) :
    Allocates (old ++ ns) nodes x := H.mono (List.subset_append_left old ns)

theorem mapM {f : α → Build β} (Hf : ∀ a, Allocates old nodes' (f a)) (as : List α) :
    Allocates old (fun bs => bs.flatMap nodes') (as.mapM f) := by
  induction as with
  | nil => exact pure (List.nil_subset _)
  | cons a as ih =>
    rw [List.mapM_cons]
    refine (Hf a).bind fun b => (ih.append _).bind fun bs => pure ?_
    rw [List.flatMap_cons, List.append_assoc]
    exact List.subset_append_right _ _

theorem place (f : Formula) : Allocates old Node.nodes (place f) where
  le {_ next _ _ _} _ _ hrun := by
    cases hrun
    exact le_build_snd next f
  allocated _ ha hrun := by
    cases hrun
    exact ha.build f

theorem binary {left right : Node} (hl : left.nodes ⊆ old) (hr : right.nodes ⊆ old)
    (op : Operator) : Allocates old Node.nodes
      (modifyGet fun next => (Node.binary next left op right, next + 1)) where
  le {_ next _ _ _} _ _ hrun := by
    cases hrun
    exact Nat.le_succ next
  allocated {_ next _ _ _} hold ha hrun := by
    cases hrun
    refine (ha.cons (n := .binary next left op right) rfl).mono (fun x hx => ?_) (Nat.le_refl _)
    have hxl := @hl x
    have hxr := @hr x
    have hx' := @hold x
    simp only [nodes_binary, List.mem_append, List.mem_cons] at hx ⊢
    grind

theorem read (text : String) : Allocates old Node.nodes (read text) := by
  refine (logged (Formula.read text)).bind fun result => ?_
  cases result with
  | ok f => exact place f
  | error e => exact throw _

end Build.Allocates

/-! ### Registered nodes -/

/-- The registered nodes and all nodes below them. -/
def memory (registry : Array Node) : List Node := registry.toList.flatMap Node.nodes

theorem nodes_subset_memory {registry : Array Node} {i : Nat} {n : Node}
    (h : registry[i]? = some n) : n.nodes ⊆ memory registry := by
  intro x hx
  have hn : n ∈ registry.toList := Array.mem_toList_iff.mpr (Array.mem_of_getElem? h)
  exact List.mem_flatMap.mpr ⟨n, hn, hx⟩

theorem Build.allocates_node (registry : Array Node) (b : Blueprint) :
    Allocates (memory registry) Node.nodes (node registry b) := by
  induction b with
  | atom name => exact .place _
  | binary left op right ihl ihr =>
    refine ihl.bind fun l => (ihr.append _).bind fun r => .binary ?_ ?_ op
    · exact List.subset_append_of_subset_left _ (List.subset_append_right _ _)
    · exact List.subset_append_right _ _
  | text s => exact .read s
  | registered index =>
    unfold node
    split
    · exact .pure (nodes_subset_memory ‹_›)
    · exact .throw _

theorem Build.allocates_mapping (registry : Array Node) (m : List (String × Blueprint)) :
    Allocates (memory registry) nodesOf (mapping registry m) := by
  have hentry : ∀ e : String × Blueprint, Allocates (memory registry) (fun p => p.2.nodes)
      (do return (e.1, ← node registry e.2)) := fun e =>
    (allocates_node registry e.2).bind fun n => .pure (List.subset_append_right _ _)
  exact .mapM hentry m

/-- The node that is to be registered with an answer, and all nodes below it. -/
def registered (p : Answer × Option Node) : List Node := p.2.elim [] Node.nodes

theorem Build.Allocates.answer {old : List Node} {nodes : α → List Node} {x : Build α}
    (H : Allocates old nodes x) (f : α → Answer) :
    Allocates old registered (do return (f (← x), none)) :=
  H.bind fun _ => .pure (List.nil_subset _)

theorem Build.allocates_substitute {n : Node} {m : List (String × Node)} (hn : n.nodes ⊆ old)
    (hm : nodesOf m ⊆ old) : Allocates old registered (do
      let (result, next) ← logged (n.substitute m (← get))
      set next
      return (Answer.substituted result.formula (result.id == n.id) (n.changes result),
        some result)) := by
  have hspec {ns next} (hold : old ⊆ ns) (ha : Allocated ns next) :=
    Substituter.substitute_spec (s := .new m) ha (List.Subset.trans hn hold)
      (List.Subset.trans hm hold)
  constructor
  · intro ns next l result next' hold ha hrun
    cases hrun
    exact (hspec hold ha).2.1
  · intro ns next l a next' hold ha hrun
    cases hrun
    exact (hspec hold ha).2.2

open Build in
theorem Query.allocates_run (registry : Array Node) (q : Query) :
    (q.run registry).Allocates (memory registry) registered := by
  have hnode := allocates_node registry
  have hmapping := allocates_mapping registry
  cases q with
  | vocabulary | describeOperator op => exact .pure (List.nil_subset _)
  | findOperator symbol =>
    refine (Allocates.logged _).bind fun op? => ?_
    cases op? with
    | some op => exact .pure (List.nil_subset _)
    | none => exact .throw _
  | scan text => exact (Allocates.logged _).answer _
  | read text => exact (Allocates.read text).bind fun n => .pure (List.subset_append_right _ _)
  | readAll texts => exact (Allocates.mapM (fun _ => .logged _) texts).answer _
  | build b => exact (hnode b).bind fun n => .pure (List.subset_append_right _ _)
  | parts b | outline b => exact (hnode b).answer _
  | atoms b | counts b | depth b => exact (hnode b).bind fun _ => (Allocates.logged _).answer _
  | analyze b =>
    refine (hnode b).bind fun _ => (Allocates.logged _).bind fun _ => ?_
    exact (Allocates.logged _).bind fun _ => (Allocates.logged _).answer _
  | substitute b m =>
    refine (hnode b).bind fun n => ((hmapping m).append _).bind fun m => ?_
    refine allocates_substitute ?_ (List.subset_append_right _ _)
    exact List.subset_append_of_subset_left _ (List.subset_append_right _ _)
  | reuse bs m =>
    refine (hmapping m).bind fun m => ?_
    refine (Allocates.mapM (fun b => (hnode b).append _) bs).bind fun ns => ?_
    exact Allocates.get.answer _
  | visit v subject =>
    cases subject with
    | inl a => exact .throw _
    | inr b => exact (hnode b).bind fun _ => .pure (List.nil_subset _)
  | compare a b => exact (hnode a).bind fun _ => ((hnode b).append _).answer _
  | distinct bs => exact (Allocates.mapM hnode bs).answer _
  | log severity message | logUnknownOperator symbol known => exact (Allocates.logged _).answer _
  | logFormulaRead text b => exact (hnode b).bind fun _ => (Allocates.logged _).answer _
  | logAnalysisResult analysis b finding =>
    cases finding with
    | text s => exact (hnode b).bind fun _ => (Allocates.logged _).answer _
    | formula found =>
      refine (hnode found).bind fun _ => ((hnode b).append _).bind fun _ => ?_
      exact (Allocates.logged _).answer _

/-! ### Whole sessions -/

namespace State
variable {s : State}

theorem step_query {n? : Option Node}
    (h : (q.run s.registry).value s.next s.logger = (.ok (a, n?), next')) :
    (s.step (.query q)).1 = .answered a ∧ (s.step (.query q)).2.2 =
      { s with registry := s.registry ++ n?.toArray, next := next' } := by
  rw [Build.value, Logged.value] at h
  constructor <;> simp only [step, h]

theorem step_query_error (h : (q.run s.registry).value s.next s.logger = (.error f, next')) :
    (s.step (.query q)).1 = .failed f ∧ (s.step (.query q)).2.2 = { s with next := next' } := by
  rw [Build.value, Logged.value] at h
  constructor <;> simp only [step, h]

theorem allocated_step (ha : Allocated (memory s.registry) s.next) (c : Command) :
    let s' := (s.step c).2.2
    Allocated (memory s'.registry) s'.next := by
  intro s'
  cases c with
  | query q =>
    have H := q.allocates_run s.registry
    have hold := List.Subset.refl (memory s.registry)
    rcases hrun : (q.run s.registry).value s.next s.logger with ⟨f | ⟨a, n?⟩, next'⟩
    · simp only [s', (step_query_error hrun).2]
      exact ha.mono hold (H.le hold ha hrun)
    · have hmem : memory (s.registry ++ n?.toArray) = memory s.registry ++ registered (a, n?) := by
        cases n? <;> simp [memory, registered]
      simp only [s', (step_query hrun).2, hmem]
      exact H.allocated hold ha hrun
  | setLevel | configure | getLogger | newLogger | commandLine => exact ha

theorem allocated_run (commands : List Command) :
    let s := initial.run commands
    Allocated (memory s.registry) s.next := by
  have hrun : ∀ s : State, Allocated (memory s.registry) s.next →
      Allocated (memory (s.run commands).registry) (s.run commands).next := by
    induction commands with
    | nil => exact fun s ha => ha
    | cons c commands ih => exact fun s ha => ih _ (allocated_step ha c)
  exact hrun initial ⟨nofun, nofun⟩

/-- Whatever a root and a mapping that a session has built share, the answer to a substitution is
that of their formulas. -/
theorem substitute_answer (ha : Allocated (memory s.registry) s.next)
    (hb : (Build.node s.registry b).value s.next s.logger = (.ok n, next₁))
    (hm : (Build.mapping s.registry m).value next₁ s.logger = (.ok ns, next₂)) :
    ∃ same changes, (s.step (.query (.substitute b m))).1 =
      .answered (.substituted (n.formula.substitute (formulas ns)) same changes) := by
  have hn := (Build.allocates_node s.registry b).allocated (List.Subset.refl _) ha hb
  have hns := (Build.allocates_mapping s.registry m).allocated (List.subset_append_left _ _) hn hm
  have hresult := Substituter.formula_value_substitute hns
    (List.subset_append_of_subset_left _ (List.subset_append_right _ _))
    (List.subset_append_right _ _) s.logger
  have hrun : ((Query.substitute b m).run s.registry).value s.next s.logger = _ :=
    (Build.value_bind _ hb).trans (Build.value_bind _ hm)
  rw [← hresult]
  exact ⟨_, _, (step_query hrun).1⟩

end State

end Session
end Formulary
