import Formulary.Visit

/-!
# Atom names

The names of the atoms of a formula, each once, in the order of their first occurrence. A collector
may be used for one formula after another: it forgets what it has seen before it starts.
-/

namespace Formulary

/-- The names seen so far, in the order in which they were first seen. -/
structure AtomCollector where
  seen : List String
  deriving DecidableEq

namespace AtomCollector

def empty : AtomCollector := ⟨[]⟩

/-- See a name; a name already seen keeps its place. -/
def note (c : AtomCollector) (name : String) : AtomCollector :=
  if name ∈ c.seen then c else ⟨c.seen ++ [name]⟩

/-- See the atoms of a formula from left to right. -/
def walk : AtomCollector → Formula → AtomCollector
  | c, .atom name => c.note name
  | c, .binary left _ right => (c.walk left).walk right

/-- Forget all names. -/
def clear (c : AtomCollector) : AtomCollector := { c with seen := [] }

/-- The names of a formula, and the collector afterwards. -/
def collect (c : AtomCollector) (f : Formula) : List String × AtomCollector :=
  let c := c.clear.walk f
  (c.seen, c)

end AtomCollector

/-- The names of the atoms in the order of their first occurrence. -/
def Formula.atoms (f : Formula) : List String :=
  (AtomCollector.empty.collect f).1

end Formulary
