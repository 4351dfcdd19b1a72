import Formulary.Text.Digit

/-!
# Tokens

The five kinds of token, and the splitting of a text into tokens. A token is as long as its kind
allows; spaces, tabs, CR and LF stand between tokens and have no other meaning. Every run of
operator characters is one token, whether or not it is the symbol of an operator.
-/

namespace Formulary

namespace Token

inductive Kind where
  | leftParen
  | rightParen
  | operator
  | identifier
  | number
  deriving DecidableEq

def Kind.name : Kind → String
  | leftParen => "LPAREN"
  | rightParen => "RPAREN"
  | operator => "OPERATOR"
  | identifier => "ID"
  | number => "NUMBER"

/-- Characters that separate tokens. -/
def isIgnored (c : Char) : Bool :=
  c = ' ' || c = '\t' || c = '\r' || c = '\n'

def isOperatorChar (c : Char) : Bool :=
  "-+<>/\\=%*&|!".toList.contains c

/-- ASCII letters and the underscore. -/
def isNameStart (c : Char) : Bool :=
  c.isAlpha || c = '_'

/-- ASCII letters, ASCII digits and the underscore. -/
def isNameChar (c : Char) : Bool :=
  c.isAlphanum || c = '_'

/-- The kind of the token that begins with `c`. -/
def Kind.ofFirst? (c : Char) : Option Kind :=
  if c = '(' then some leftParen
  else if c = ')' then some rightParen
  else if isOperatorChar c then some operator
  else if isNameStart c then some identifier
  else if Text.isDigit c then some number
  else none

/-- `c` extends a token of this kind. -/
def Kind.continues : Kind → Char → Bool
  | leftParen, _ => false
  | rightParen, _ => false
  | operator, c => isOperatorChar c
  | identifier, c => isNameChar c
  | number, c => Text.isDigit c

end Token

structure Token where
  kind : Token.Kind
  text : String
  /-- The position of the first character; positions count characters. -/
  start : Nat
  deriving DecidableEq

/-- The position after the last character. -/
def Token.stop (t : Token) : Nat := t.start + t.text.length

/-- A character that neither separates tokens nor belongs to one. -/
structure ForeignChar where
  char : Char
  position : Nat
  deriving DecidableEq

def ForeignChar.message (f : ForeignChar) : String :=
  "Illegal character '" ++ f.char.toString ++ "' encountered at position " ++
    toString f.position

/-- The tokens of a text up to its end or to its first foreign character. -/
structure Lexing where
  tokens : List Token
  foreign? : Option ForeignChar
  deriving DecidableEq

namespace Lexing

/-- The lexing of characters that begin at position `pos`. -/
def ofChars (pos : Nat) : List Char → Lexing
  | [] => ⟨[], none⟩
  | c :: cs =>
    if Token.isIgnored c then ofChars (pos + 1) cs
    else match Token.Kind.ofFirst? c with
      | none => ⟨[], some ⟨c, pos⟩⟩
      | some kind =>
        let text := c :: cs.takeWhile kind.continues
        let rest := ofChars (pos + text.length) (cs.dropWhile kind.continues)
        ⟨⟨kind, String.ofList text, pos⟩ :: rest.tokens, rest.foreign?⟩
termination_by cs => cs.length
decreasing_by
  · exact Nat.lt_succ_self _
  · exact Nat.lt_succ_of_le (List.dropWhile_suffix _).length_le

/-- The lexing of a text. -/
def ofText (text : String) : Lexing := ofChars 0 text.toList

@[simp] theorem ofChars_nil (pos : Nat) : ofChars pos [] = ⟨[], none⟩ := by
  rw [ofChars]

theorem ofChars_cons_ignored {c : Char} (h : Token.isIgnored c) (pos : Nat) (cs : List Char) :
    ofChars pos (c :: cs) = ofChars (pos + 1) cs := by
  rw [ofChars, if_pos h]

end Lexing

end Formulary
