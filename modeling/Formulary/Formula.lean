import Formulary.Operator

/-!
# Formulas

A formula is an atom, which is nothing but a name, or two formulas joined by an operator. Its
canonical text puts every binary formula in parentheses of its own, so nesting is spelled out and
operators need no precedence.
-/

namespace Formulary

/-- Atom names are not restricted. Only identifiers and numbers are sure to read back. -/
inductive Formula where
  | atom (name : String)
  | binary (left : Formula) (operator : Operator) (right : Formula)
  deriving DecidableEq

namespace Formula

/-- The canonical text. -/
def render : Formula → String
  | atom name => name
  | binary left op right =>
    "(" ++ left.render ++ " " ++ op.symbol ++ " " ++ right.render ++ ")"

/-- The names of all atoms have this property. -/
def EveryName (p : String → Prop) : Formula → Prop
  | atom name => p name
  | binary left _ right => left.EveryName p ∧ right.EveryName p

/-- A node of a formula without its children. -/
inductive Label where
  | name (name : String)
  | operator (op : Operator)
  deriving DecidableEq

def Label.text : Label → String
  | name s => s
  | operator op => op.symbol

/-- The labels, each node before its left and then its right subtree. -/
def preorder : Formula → List Label
  | atom name => [.name name]
  | binary left op right => .operator op :: (left.preorder ++ right.preorder)

/-- The labels, each node after its left and its right subtree. -/
def postorder : Formula → List Label
  | atom name => [.name name]
  | binary left op right => left.postorder ++ right.postorder ++ [.operator op]

/-- The name of the first atom. -/
def leftmost : Formula → String
  | atom name => name
  | binary left _ _ => left.leftmost

/-- The name of the last atom. -/
def rightmost : Formula → String
  | atom name => name
  | binary _ _ right => right.rightmost

@[simp] theorem render_atom (name : String) : (atom name).render = name := rfl

@[simp] theorem render_binary (left : Formula) (op : Operator) (right : Formula) :
    (binary left op right).render =
      "(" ++ left.render ++ " " ++ op.symbol ++ " " ++ right.render ++ ")" := rfl

instance decidableEveryName (p : String → Prop) [DecidablePred p] : DecidablePred (EveryName p)
  | atom name => inferInstanceAs (Decidable (p name))
  | binary left _ right =>
    have := decidableEveryName p left
    have := decidableEveryName p right
    inferInstanceAs (Decidable (left.EveryName p ∧ right.EveryName p))

end Formula

end Formulary
