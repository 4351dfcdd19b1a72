import Formulary.Node

/-!
# Substitution

Replacing the atoms named in a mapping by formulas, all at once: replacements are not substituted
into. On plain formulas this is a recursion. On nodes with identities a node is kept if nothing
below it is replaced, and a node that is met again is looked up in a memo and not gone through a
second time; the memo is empty before and after each substitution.
-/

namespace Formulary

/-- Replace each atom named in `m` by its formula. -/
def Formula.substitute (m : List (String × Formula)) : Formula → Formula
  | atom name => (m.lookup name).getD (atom name)
  | binary left op right => binary (left.substitute m) op (right.substitute m)

/-- A mapping from atom names to nodes, and the results of the nodes met so far by identity. -/
structure Substituter where
  mapping : List (String × Node)
  memo : List (Nat × Node)

namespace Substituter

def new (mapping : List (String × Node)) : Substituter := ⟨mapping, []⟩

/-- Forget all results. -/
def clear (s : Substituter) : Substituter := { s with memo := [] }

def remember (s : Substituter) (n result : Node) : Substituter :=
  { s with memo := (n.id, result) :: s.memo }

/-- The result for a node, with the substituter and the next new identity afterwards. -/
def walk (s : Substituter) (next : Nat) (n : Node) : Node × Substituter × Nat :=
  match s.memo.lookup n.id with
  | some result => (result, s, next)
  | none =>
    match n with
    | .atom _ name =>
      let result := (s.mapping.lookup name).getD n
      (result, s.remember n result, next)
    | .binary _ left op right =>
      let (l, s, next) := s.walk next left
      let (r, s, next) := s.walk next right
      if l.id = left.id ∧ r.id = right.id then (n, s.remember n n, next)
      else
        let result := .binary next l op r
        (result, s.remember n result, next + 1)

/-- Substitute in the formula of a node. New nodes have identities from `next` on. -/
def substitute (s : Substituter) (next : Nat) (root : Node) : Node × Substituter × Nat :=
  let (result, s, next) := s.clear.walk next root
  (result, s.clear, next)

end Substituter

/-- What became of a node by substitution. -/
inductive Change where
  | kept
  | replaced
  | rebuilt
  deriving DecidableEq

/-- The changes on the way down from `n`, which became `result`, each node before its left and
its right child; below a node that was kept or replaced nothing is said. -/
def Node.changes : (n result : Node) → List Change
  | n@(.binary _ left _ right), result@(.binary _ left' _ right') =>
    if n.id = result.id then [.kept]
    else .rebuilt :: (left.changes left' ++ right.changes right')
  | n, result => if n.id = result.id then [.kept] else [.replaced]

end Formulary
