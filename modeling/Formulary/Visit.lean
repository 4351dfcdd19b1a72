import Formulary.Formula

/-!
# Visiting formulas

A visitor has one handler for each form of formula. Visiting hands the parts of a node to the
handler of its form and does not descend by itself. A value that is no formula is refused.
-/

namespace Formulary

structure Visitor (α : Type) where
  atom : String → α
  binary : Formula → Operator → Formula → α

/-- The kinds of value that are no formula. -/
inductive NonFormula where
  | null
  | text
  | integer
  | decimal
  | boolean
  | list
  | dictionary
  deriving DecidableEq

def NonFormula.typeName : NonFormula → String
  | null => "NoneType"
  | text => "str"
  | integer => "int"
  | decimal => "float"
  | boolean => "bool"
  | list => "list"
  | dictionary => "dict"

def NonFormula.message (a : NonFormula) : String := "Not a formula node: " ++ a.typeName

/-- The handler of the form of `f`, given the parts of `f`. -/
def Formula.visit (v : Visitor α) : Formula → α
  | atom name => v.atom name
  | binary left op right => v.binary left op right

/-- Visit what may turn out to be no formula. -/
def visit (v : Visitor α) : NonFormula ⊕ Formula → Except NonFormula α
  | .inl a => .error a
  | .inr f => .ok (f.visit v)

/-- The names of the forms of formula. -/
def Formula.formNames : List String := ["Atom", "BinaryFormula"]

end Formulary
