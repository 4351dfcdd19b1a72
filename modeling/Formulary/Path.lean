/-!
# File paths

A path is a root and the names below it. Repeated and trailing slashes and the name `.` say
nothing, while `..` is kept. Two slashes at the front, no more and no fewer, are a root of their
own.
-/

namespace Formulary

structure Path where
  root : String
  names : List String
  deriving DecidableEq

namespace Path

/-- The root of an absolute path, and nothing for a relative one. -/
def rootOf (cs : List Char) : String :=
  match (cs.takeWhile (· = '/')).length with
  | 0 => ""
  | 2 => "//"
  | _ => "/"

def ofString (s : String) : Path where
  root := rootOf s.toList
  names := (s.splitOn "/").filter fun name => name != "" && name != "."

def toString (p : Path) : String :=
  if p.root = "" ∧ p.names = [] then "." else p.root ++ "/".intercalate p.names

def isAbsolute (p : Path) : Bool := p.root != ""

end Path

end Formulary
