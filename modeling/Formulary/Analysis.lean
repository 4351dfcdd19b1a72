import Formulary.Analysis.Atoms
import Formulary.Analysis.Counts
import Formulary.Analysis.Depth
import Formulary.Analysis.Outline
import Formulary.Analysis.Substitution
import Formulary.Log
import Formulary.Reader

/-!
# Reading and analysing with records

The reader, the operator lookup and the analyses as computations that log what they do. All of
their records are debug records. No limit on the depth of recursion is modelled, so rendering a
formula for a record never fails, and nothing fails at one level that succeeds at another.
-/

namespace Formulary

namespace Logged

/-- A failed operator lookup in a table of `known` symbols. -/
def unknownOperator (symbol : String) (known : Int) : Logged Unit :=
  debug ("Operator lookup failed for " ++ Text.quoted symbol ++ " (" ++ toString known ++
    " symbols known)")

/-- A text that was read as a formula. The formula is rendered only for a record that is
written. -/
def formulaRead (text : String) (f : Formula) : Logged Unit :=
  whenEnabled .debug (debug ("Read " ++ Text.quoted text ++ " as " ++ f.render))

/-- The result of an analysis of a formula. -/
def analysisResult (analysis : String) (f : Formula) (shown : String) : Logged Unit :=
  whenEnabled .debug (debug (analysis ++ "(" ++ f.render ++ ") -> " ++ shown))

/-- A character that no token can hold. -/
def foreignChar (c : ForeignChar) : Logged Unit :=
  debug ("Illegal character '" ++ c.char.toString ++ "' at position " ++ toString c.position)

/-- What is logged about a failed reading: syntax errors go without a record. -/
def readFailure : ReadError → Logged Unit
  | .unknownOperator symbol => unknownOperator symbol Operator.all.length
  | .foreign c => do
    foreignChar c
    debug ("Unexpected reading error: " ++ c.message)
  | .unexpected _ | .unexpectedEnd => pure ()

end Logged

/-- The operator of a symbol. -/
def Operator.find (symbol : String) : Logged (Option Operator) :=
  match ofSymbol? symbol with
  | some op => pure (some op)
  | none => do
    Logged.unknownOperator symbol all.length
    return none

/-- The tokens of a text up to its end or to its first foreign character. -/
def Lexing.scan (text : String) : Logged Lexing := do
  let lexing := ofText text
  if let some c := lexing.foreign? then Logged.foreignChar c
  return lexing

namespace Formula

/-- Read a text; only failures are logged. -/
def readQuietly (text : String) : Logged (Except ReadError Formula) :=
  match parse text with
  | .ok f => pure (.ok f)
  | .error e => do
    Logged.readFailure e
    return .error e

/-- Read a text. -/
def read (text : String) : Logged (Except ReadError Formula) := do
  Logged.debug ("Reading formula: " ++ text)
  let result ← readQuietly text
  if let .ok f := result then Logged.formulaRead text f
  return result

/-- What is read does not depend on the logger. -/
theorem value_read (text : String) (l : Logger) : (read text).value l = parse text := by
  have hquiet : (readQuietly text).value l = parse text := by
    unfold readQuietly
    split <;> rename_i h <;> exact h.symm
  rw [read, Logged.value_bind, Logged.value_bind, hquiet]
  cases parse text <;> rfl

def collectAtoms (f : Formula) : Logged (List String) := do
  Logged.analysisResult "collect_atoms" f (Text.quotedTuple f.atoms)
  return f.atoms

def countOperators (f : Formula) : Logged Tally := do
  Logged.analysisResult "count_operators" f f.counts.label
  return f.counts

def measureDepth (f : Formula) : Logged Nat := do
  Logged.analysisResult "depth" f (toString f.depth)
  return f.depth

end Formula

/-- Substitute in the formula of a node, with new nodes from `next` on; also the identity after
them. -/
def Node.substitute (mapping : List (String × Node)) (next : Nat) (root : Node) :
    Logged (Node × Nat) := do
  let (result, _, next) := (Substituter.new mapping).substitute next root
  Logged.analysisResult "substitute" root.formula result.formula.render
  return (result, next)

end Formulary
