/-!
# Command-line options

The options of the command line with their spellings, and the texts that describe them.
-/

namespace Formulary.CommandLine

inductive Flag where
  | help
  | file
  | tree
  | stats
  | symbols
  | quiet
  | debug
  deriving DecidableEq

namespace Flag

/-- The options in the order in which they are described. -/
def all : List Flag := [help, file, tree, stats, symbols, quiet, debug]

def spellings : Flag → List String
  | help => ["-h", "--help"]
  | file => ["-f", "--file"]
  | tree => ["--tree"]
  | stats => ["--stats"]
  | symbols => ["--symbols"]
  | quiet => ["-q", "--quiet"]
  | debug => ["--debug"]

/-- All spellings with their options. -/
def table : List (String × Flag) :=
  all.flatMap fun flag => flag.spellings.map fun s => (s, flag)

def ofSpelling? (s : String) : Option Flag := table.lookup s

/-- The name of the value of an option that takes one. -/
def value? : Flag → Option String
  | file => some "FILE"
  | _ => none

/-- The option takes a value. -/
def takesValue (flag : Flag) : Bool := flag.value?.isSome

def description : Flag → String
  | help => "show this help message and exit"
  | file => "Read the formula from a file instead"
  | tree => "Print an indented outline of the formula"
  | stats => "Print atoms, depth and operator counts"
  | symbols => "Print the operator table and exit"
  | quiet => "Only report errors"
  | debug => "Enable debug output (overrides --quiet)"

/-- The name of the option in error messages. -/
def title (flag : Flag) : String := "/".intercalate flag.spellings

/-- The spellings as they are shown in the help, each with its value. -/
def invocation (flag : Flag) : String :=
  ", ".intercalate (flag.spellings.map fun s =>
    match flag.value? with
    | some value => s ++ " " ++ value
    | none => s)

end Flag

end Formulary.CommandLine
