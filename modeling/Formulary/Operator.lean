import Formulary.Text.Quoted

/-!
# Binary operators

The closed vocabulary of binary connectives, relations and arithmetic operators. Each operator has
one canonical symbol, no two share one, and the order of the table is the order of declaration.
-/

namespace Formulary

inductive Operator where
  | plus
  | minus
  | less
  | divide
  | equals
  | modulo
  | greater
  | notEquals
  | implicative
  | conjunctive
  | disjunctive
  | multiplication
  | lessOrEquals
  | greaterOrEquals
  deriving DecidableEq

namespace Operator

/-- The operator table. -/
def all : List Operator :=
  [plus, minus, less, divide, equals, modulo, greater, notEquals, implicative, conjunctive,
    disjunctive, multiplication, lessOrEquals, greaterOrEquals]

def symbol : Operator → String
  | plus => "+"
  | minus => "-"
  | less => "<"
  | divide => "/"
  | equals => "="
  | modulo => "%"
  | greater => ">"
  | notEquals => "<>"
  | implicative => "->"
  | conjunctive => "/\\"
  | disjunctive => "\\/"
  | multiplication => "*"
  | lessOrEquals => "<="
  | greaterOrEquals => ">="

def name : Operator → String
  | plus => "PLUS"
  | minus => "MINUS"
  | less => "LESS"
  | divide => "DIVIDE"
  | equals => "EQUALS"
  | modulo => "MODULO"
  | greater => "GREATER"
  | notEquals => "NOT_EQUALS"
  | implicative => "IMPLICATIVE"
  | conjunctive => "CONJUNCTIVE"
  | disjunctive => "DISJUNCTIVE"
  | multiplication => "MULTIPLICATION"
  | lessOrEquals => "LESS_OR_EQUALS"
  | greaterOrEquals => "GREATER_OR_EQUALS"

/-- The position in the operator table. -/
def index (op : Operator) : Nat := all.idxOf op

/-- The operator with exactly this symbol. -/
def ofSymbol? (s : String) : Option Operator := all.find? (·.symbol == s)

def ofName? (s : String) : Option Operator := all.find? (·.name == s)

/-- The operator as it is shown inside records, by name and quoted symbol. -/
def label (op : Operator) : String :=
  "<Operator." ++ op.name ++ ": " ++ Text.quoted op.symbol ++ ">"

/-- The symbols of the table, each after a space but the first. -/
def symbolList : String := " ".intercalate (all.map symbol)

theorem mem_all (op : Operator) : op ∈ all := by
  cases op <;> decide

theorem symbol_injective {a b : Operator} (h : a.symbol = b.symbol) : a = b := by
  cases a <;> cases b <;> first | rfl | exact absurd h (by decide)

theorem ofSymbol?_eq_some_iff {s : String} {op : Operator} :
    ofSymbol? s = some op ↔ op.symbol = s := by
  constructor
  · intro h
    simpa using List.find?_some h
  · rintro rfl
    cases h : ofSymbol? op.symbol with
    | none =>
      have := List.find?_eq_none.mp h op (mem_all op)
      simp at this
    | some op' => exact congrArg some (symbol_injective (by simpa using List.find?_some h))

@[simp] theorem ofSymbol?_symbol (op : Operator) : ofSymbol? op.symbol = some op :=
  ofSymbol?_eq_some_iff.mpr rfl

end Operator

end Formulary
