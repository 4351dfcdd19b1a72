import Formulary.Formula

/-!
# Nodes with identities

A formula as it is held in memory: every node has an identity, and one node may be the child of
several parents. Two nodes are the same if their identities are; in a coherent family of nodes the
same identity always comes with the same contents.
-/

namespace Formulary

inductive Node where
  | atom (id : Nat) (name : String)
  | binary (id : Nat) (left : Node) (operator : Operator) (right : Node)
  deriving DecidableEq

namespace Node

def id : Node → Nat
  | atom id _ => id
  | binary id _ _ _ => id

/-- The formula of a node, identities forgotten. -/
def formula : Node → Formula
  | atom _ name => .atom name
  | binary _ left op right => .binary left.formula op right.formula

/-- The node itself and all nodes below it, with one entry for each path. -/
def nodes : Node → List Node
  | n@(atom _ _) => [n]
  | n@(binary _ left _ right) => n :: (left.nodes ++ right.nodes)

/-- The nodes under some keys, and all nodes below them. -/
def nodesOf (m : List (κ × Node)) : List Node := m.flatMap fun (_, n) => n.nodes

/-- The formulas of a mapping. -/
def formulas (m : List (String × Node)) : List (String × Formula) :=
  m.map fun (name, n) => (name, n.formula)

/-- Equal identities mean equal nodes. -/
def Coherent (ns : List Node) : Prop :=
  ∀ m ∈ ns, ∀ n ∈ ns, m.id = n.id → m = n

/-- The nodes in memory: an identity belongs to one of them only, and those from `next` on to
none. -/
structure Allocated (ns : List Node) (next : Nat) : Prop where
  coherent : Coherent ns
  lt_next : ∀ n ∈ ns, n.id < next

/-- Build a formula out of new nodes, with identities from `next` on; also the identity after
them. -/
def build (next : Nat) : Formula → Node × Nat
  | .atom name => (atom next name, next + 1)
  | .binary left op right =>
    let (l, next) := build next left
    let (r, next) := build next right
    (binary next l op r, next + 1)

instance (ns : List Node) : Decidable (Coherent ns) :=
  inferInstanceAs (Decidable (∀ m ∈ ns, ∀ n ∈ ns, m.id = n.id → m = n))

instance (ns : List Node) (next : Nat) : Decidable (Allocated ns next) :=
  decidable_of_iff (Coherent ns ∧ ∀ n ∈ ns, n.id < next)
    ⟨fun h => ⟨h.1, h.2⟩, fun H => ⟨H.coherent, H.lt_next⟩⟩

namespace Allocated

theorem mono (H : Allocated ns next) (hsub : ms ⊆ ns) (hle : next ≤ next') :
    Allocated ms next' := by
  refine ⟨fun m hm n hn => H.coherent m (hsub hm) n (hsub hn), fun n hn => ?_⟩
  exact Nat.lt_of_lt_of_le (H.lt_next n (hsub hn)) hle

/-- A node may take the next identity. -/
theorem cons {n : Node} (H : Allocated ns next) (hn : n.id = next) :
    Allocated (n :: ns) (next + 1) := by
  have hne : ∀ m ∈ ns, m.id ≠ n.id := fun m hm => by
    rw [hn]
    exact Nat.ne_of_lt (H.lt_next m hm)
  refine ⟨fun m hm m' hm' h => ?_, fun m hm => ?_⟩
  · obtain hm | hm := List.mem_cons.mp hm <;> obtain hm' | hm' := List.mem_cons.mp hm'
    · rw [hm, hm']
    · rw [hm] at h
      exact absurd h.symm (hne m' hm')
    · rw [hm'] at h
      exact absurd h (hne m hm)
    · exact H.coherent m hm m' hm' h
  · obtain hm | hm := List.mem_cons.mp hm
    · rw [hm, hn]
      exact Nat.lt_succ_self next
    · exact Nat.lt_succ_of_lt (H.lt_next m hm)

end Allocated

@[simp] theorem id_atom (i : Nat) (name : String) : (atom i name).id = i := rfl

@[simp] theorem id_binary (i : Nat) (left : Node) (op : Operator) (right : Node) :
    (binary i left op right).id = i := rfl

theorem mem_nodes_self (n : Node) : n ∈ n.nodes := by
  cases n <;> exact List.mem_cons_self

@[simp] theorem nodes_atom (i : Nat) (name : String) :
    (atom i name).nodes = [atom i name] := rfl

@[simp] theorem nodes_binary (i : Nat) (left : Node) (op : Operator) (right : Node) :
    (binary i left op right).nodes =
      binary i left op right :: (left.nodes ++ right.nodes) := rfl

theorem le_build_snd (next : Nat) (f : Formula) : next ≤ (build next f).2 := by
  induction f generalizing next with
  | atom => exact Nat.le_succ next
  | binary left op right ihl ihr =>
    exact Nat.le_succ_of_le (Nat.le_trans (ihl next) (ihr _))

@[simp] theorem formula_build (next : Nat) (f : Formula) : (build next f).1.formula = f := by
  induction f generalizing next with
  | atom => rfl
  | binary left op right ihl ihr => simp [build, formula, ihl, ihr]

end Node

end Formulary
