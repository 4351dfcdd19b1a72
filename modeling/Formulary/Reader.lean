import Formulary.Formula
import Formulary.Token

/-!
# Reading formulas

The reader of fully parenthesised text, a stack machine over the tokens:

    formula = "(" formula OPERATOR formula ")" | "(" formula ")" | ID | NUMBER

Redundant parentheses are dropped. An operand that is complete stays unsettled until the next token
is known, and is settled only if that token may follow an operand: an operator, a right
parenthesis, or the end. Operator symbols are looked up when a binary formula is settled, so an
unknown one is reported neither before the token after its group nor after any later fault.
-/

namespace Formulary

/-- Why a text has no formula. -/
inductive ReadError where
  | unexpected (token : Token)
  | unexpectedEnd
  | foreign (char : ForeignChar)
  | unknownOperator (symbol : String)
  deriving DecidableEq

/-- The message of a failed operator lookup. -/
def unknownOperatorMessage (symbol : String) : String :=
  "Found unknown binary operator: " ++ Text.quoted symbol

def ReadError.message : ReadError → String
  | unexpected t =>
    "Syntax error near '" ++ t.text ++ "' (type: " ++ t.kind.name ++ ") at position " ++
      toString t.start
  | unexpectedEnd => "Syntax error: Unexpected end of formula"
  | foreign c => "Read failed: " ++ c.message
  | unknownOperator symbol => unknownOperatorMessage symbol

namespace Reader

/-- An open group. -/
inductive Frame where
  /-- After the left parenthesis and at most one operand. -/
  | opened
  /-- After the left operand and the operator's symbol. -/
  | joining (left : Formula) (symbol : String)

/-- A complete operand that waits for the next token. -/
inductive Operand where
  | whole (f : Formula)
  | joined (left : Formula) (symbol : String) (right : Formula)

/-- The formula of an operand; a joined one needs a known operator. -/
def Operand.settle : Operand → Except ReadError Formula
  | whole f => .ok f
  | joined left symbol right =>
    match Operator.ofSymbol? symbol with
    | some op => .ok (.binary left op right)
    | none => .error (.unknownOperator symbol)

/-- The open groups, innermost first, and whether an operand is wanted next or waits to be
settled. -/
inductive State where
  | wanting (frames : List Frame)
  | holding (operand : Operand) (frames : List Frame)

def State.initial : State := .wanting []

/-- One token. -/
def State.step : State → Token → Except ReadError State
  | wanting frames, t =>
    match t.kind with
    | .leftParen => .ok (wanting (.opened :: frames))
    | .identifier | .number => .ok (holding (.whole (.atom t.text)) frames)
    | .operator | .rightParen => .error (.unexpected t)
  | holding operand frames, t =>
    match t.kind with
    | .leftParen | .identifier | .number => .error (.unexpected t)
    | .operator => do
      let f ← operand.settle
      match frames with
      | .opened :: frames => .ok (wanting (.joining f t.text :: frames))
      | _ => .error (.unexpected t)
    | .rightParen => do
      let f ← operand.settle
      match frames with
      | .opened :: frames => .ok (holding (.whole f) frames)
      | .joining left symbol :: frames => .ok (holding (.joined left symbol f) frames)
      | [] => .error (.unexpected t)

/-- The end of the text. -/
def State.finish : State → Except ReadError Formula
  | wanting _ => .error .unexpectedEnd
  | holding operand frames => do
    let f ← operand.settle
    match frames with
    | [] => .ok f
    | _ :: _ => .error .unexpectedEnd

/-- The formula of a lexing. A foreign character counts only once all tokens before it have been
accepted. -/
def run (lexing : Lexing) : Except ReadError Formula := do
  let state ← lexing.tokens.foldlM State.step State.initial
  match lexing.foreign? with
  | some c => .error (.foreign c)
  | none => state.finish

end Reader

/-- The formula that a text stands for. -/
def Formula.parse (text : String) : Except ReadError Formula :=
  Reader.run (Lexing.ofText text)

end Formulary
