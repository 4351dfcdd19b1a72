import Formulary.Formula
import Formulary.Token

/-!
# Splicing texts

Other texts in the place of some tokens of a text. All that stands before, between and after these
tokens stays as it is.
-/

namespace Formulary

namespace Token

/-- The characters `cs`, of which the first has position `pos`, with each of these tokens replaced
by the text that comes with it. -/
def splice (pos : Nat) (cs : List Char) : List (Token × String) → List Char
  | [] => cs
  | (t, s) :: edits =>
    cs.take (t.start - pos) ++ s.toList ++ splice t.stop (cs.drop (t.stop - pos)) edits

/-- The tokens that have another text by `r`, with that text. -/
def edits (r : Token → Option String) (ts : List Token) : List (Token × String) :=
  ts.filterMap fun t => (r t).map (t, ·)

/-- The canonical text that takes the place of a token, if it is a name in `m`. -/
def rendering? (m : List (String × Formula)) (t : Token) : Option String :=
  match t.kind with
  | .identifier | .number => (m.lookup t.text).map Formula.render
  | _ => none

end Token

/-- The text with each name in `m` replaced by the canonical text of its formula. -/
def Formula.substituteText (m : List (String × Formula)) (text : String) : String :=
  String.ofList
    (Token.splice 0 text.toList (Token.edits (Token.rendering? m) (Lexing.ofText text).tokens))

end Formulary
