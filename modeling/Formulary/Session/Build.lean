import Formulary.Analysis

/-!
# Building formulas

Descriptions of formulas to be built, and computations that build them: they log, they may fail,
and each new node takes the next identity.
-/

namespace Formulary

/-- How a formula is to be built. -/
inductive Blueprint where
  | atom (name : String)
  | binary (left : Blueprint) (operator : Operator) (right : Blueprint)
  /-- Read a text. -/
  | text (s : String)
  /-- Take a registered node. -/
  | registered (index : Nat)

namespace Session

/-- Why a command fails. -/
inductive Failure where
  | read (e : ReadError)
  | notAFormula (a : NonFormula)
  | notRegistered (index : Nat)
  deriving DecidableEq

def Failure.message : Failure → String
  | read e => e.message
  | notAFormula a => a.message
  | notRegistered index => "No node is registered under " ++ toString index

/-- A computation that logs, may fail, and passes the next new identity on. -/
abbrev Build := ExceptT Failure (StateT Nat Logged)

namespace Build

def logged (x : Logged α) : Build α := liftM x

/-- New nodes for a formula. -/
def place (f : Formula) : Build Node := modifyGet (Node.build · f)

/-- New nodes for the formula that a text stands for. -/
def read (text : String) : Build Node := do
  match ← logged (Formula.read text) with
  | .ok f => place f
  | .error e => throw (.read e)

/-- Build a formula, the left side of a binary one first. -/
def node (registry : Array Node) : Blueprint → Build Node
  | .atom name => place (.atom name)
  | .binary left op right => do
    let l ← node registry left
    let r ← node registry right
    modifyGet fun next => (.binary next l op r, next + 1)
  | .text s => read s
  | .registered index =>
    match registry[index]? with
    | some n => return n
    | none => throw (.notRegistered index)

/-- Build the formulas of a mapping in its order. -/
def mapping (registry : Array Node) (m : List (String × Blueprint)) :
    Build (List (String × Node)) :=
  m.mapM fun (name, b) => return (name, ← node registry b)

end Build

end Session

end Formulary
