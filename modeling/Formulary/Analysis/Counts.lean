import Formulary.Visit

/-!
# Operator counts

How often each operator occurs in a formula. A tally keeps its keys in the order in which they
entered it. Adding two tallies keeps the keys of the first and then takes the new ones of the
second, without keys whose count is zero.
-/

namespace Formulary

/-- Counts of operators, in the order in which the operators entered. -/
structure Tally where
  entries : List (Operator × Nat)
  deriving DecidableEq

namespace Tally

def empty : Tally := ⟨[]⟩

def keys (t : Tally) : List Operator := t.entries.map (·.1)

/-- An absent operator has count zero. -/
def count (t : Tally) (op : Operator) : Nat := (t.entries.lookup op).getD 0

def add (a b : Tally) : Tally where
  entries :=
    (a.entries.map fun (op, n) => (op, n + b.count op)).filter (fun (_, n) => 0 < n) ++
      b.entries.filter fun (op, n) => !a.keys.contains op && 0 < n

/-- Count one more occurrence of `op`. -/
def bump (t : Tally) (op : Operator) : Tally where
  entries :=
    if t.keys.contains op then
      t.entries.map fun (k, n) => if k = op then (k, n + 1) else (k, n)
    else t.entries ++ [(op, 1)]

/-- The operators that occur, in the order of the operator table. -/
def table (t : Tally) : List (Operator × Nat) :=
  (Operator.all.map fun op => (op, t.count op)).filter fun (_, n) => 0 < n

/-- The tally in the order of entry, as it is shown inside records. -/
def label (t : Tally) : String :=
  "\x7b" ++ ", ".intercalate (t.entries.map fun (op, n) => op.label ++ ": " ++ toString n) ++
    "\x7d"

end Tally

/-- The counts of the two sides together, and then one more for the operator itself. -/
def Formula.counts : Formula → Tally
  | atom _ => .empty
  | binary left op right => (left.counts.add right.counts).bump op

end Formulary
