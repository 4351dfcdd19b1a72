import Formulary.Visit

/-!
# Nesting depth
-/

namespace Formulary

/-- Atoms have depth zero. -/
def Formula.depth : Formula → Nat
  | atom _ => 0
  | binary left _ right => 1 + max left.depth right.depth

@[simp] theorem Formula.depth_atom (name : String) : (atom name).depth = 0 := rfl

@[simp] theorem Formula.depth_binary (left : Formula) (op : Operator) (right : Formula) :
    (binary left op right).depth = 1 + max left.depth right.depth := rfl

end Formulary
