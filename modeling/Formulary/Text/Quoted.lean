import Formulary.Text.Printable

/-!
# Quoted text

A text between quotes, with escapes for what cannot stand there as it is. The quote is the single
one, unless the text holds a single quote and no double quote. The backslash and the chosen quote
take a backslash; LF, CR and TAB have short escapes; every other unprintable character is written
in lower-case hexadecimal, with two, four or eight digits.
-/

namespace Formulary.Text

/-- The last `width` hexadecimal digits of `n`. -/
def hexDigits : (width n : Nat) → List Char
  | 0, _ => []
  | width + 1, n => hexDigits width (n / 16) ++ [Nat.digitChar (n % 16)]

/-- The numeric escape of `c`, as short as its code point allows. -/
def hexEscape (c : Char) : List Char :=
  if c.toNat < 0x100 then '\\' :: 'x' :: hexDigits 2 c.toNat
  else if c.toNat < 0x10000 then '\\' :: 'u' :: hexDigits 4 c.toNat
  else '\\' :: 'U' :: hexDigits 8 c.toNat

/-- `c` as it is written between the quotes `q`. -/
def escape (q c : Char) : List Char :=
  if c = q ∨ c = '\\' then ['\\', c]
  else if c = '\n' then ['\\', 'n']
  else if c = '\r' then ['\\', 'r']
  else if c = '\t' then ['\\', 't']
  else if isPrintable c then [c]
  else hexEscape c

/-- The quote for a text: single, unless that would cost an escape which the double one saves. -/
def quoteFor (cs : List Char) : Char :=
  if '\'' ∈ cs ∧ '"' ∉ cs then '"' else '\''

/-- The text in quotes. -/
def quoted (s : String) : String :=
  let q := quoteFor s.toList
  String.ofList (q :: s.toList.flatMap (escape q) ++ [q])

/-- Quoted texts in parentheses; a lone one keeps its comma. -/
def quotedTuple : List String → String
  | [s] => "(" ++ quoted s ++ ",)"
  | ss => "(" ++ ", ".intercalate (ss.map quoted) ++ ")"

end Formulary.Text
