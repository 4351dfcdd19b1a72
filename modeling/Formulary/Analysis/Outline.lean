import Formulary.Text.Padding
import Formulary.Visit

/-!
# Outlines

An outline of a formula has one line for each node, a node before its children, which stand one
level deeper. A binary node is shown by its operator's symbol and an atom by its name. A printer
may be used for one formula after another: it starts each outline from an empty page.
-/

namespace Formulary

/-- The level of the next line and the lines so far. -/
structure OutlinePrinter where
  level : Nat
  lines : List String
  deriving DecidableEq

namespace OutlinePrinter

def empty : OutlinePrinter := ⟨0, []⟩

/-- Two spaces for each level. -/
def indentation (level : Nat) : String := Text.spaces (2 * level)

/-- Append a line at the present level. -/
def write (p : OutlinePrinter) (text : String) : OutlinePrinter :=
  { p with lines := p.lines ++ [indentation p.level ++ text] }

/-- Append the lines of a formula. -/
def walk : OutlinePrinter → Formula → OutlinePrinter
  | p, .atom name => p.write name
  | p, .binary left op right =>
    let p := p.write op.symbol
    let p := ({ p with level := p.level + 1 }.walk left).walk right
    { p with level := p.level - 1 }

/-- Take an empty page, at level zero. -/
def clear (p : OutlinePrinter) : OutlinePrinter := { p with level := 0, lines := [] }

/-- The outline of a formula, and the printer afterwards. -/
def outline (p : OutlinePrinter) (f : Formula) : List String × OutlinePrinter :=
  let p := p.clear.walk f
  (p.lines, p)

end OutlinePrinter

/-- The lines of the outline. -/
def Formula.outline (f : Formula) : List String :=
  (OutlinePrinter.empty.outline f).1

end Formulary
