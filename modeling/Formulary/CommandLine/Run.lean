import Formulary.Analysis
import Formulary.CommandLine.Arguments
import Formulary.CommandLine.Help
import Formulary.Directory
import Formulary.Text.Blank
import Formulary.Text.LineEnd
import Formulary.Text.Utf8

/-!
# Running a command line

One run of the program: the operator table, or a formula from the command line or from a file,
read and rendered, with its outline and its statistics if they are asked for. The exit code tells
how it went: 0 for success, 2 for a malformed or missing formula or wrong arguments, 3 for an
unknown operator, 4 for a file that yields no text.

The exit code 5, for unexpected errors, is left out. What can go wrong is listed in `RunError`, and
beyond that only a limit on the depth of recursion could make a run fail, on a formula nested too
deeply. No such limit is modelled: rendering and the analyses succeed on formulas of any depth, also
when they are done for a record.
-/

namespace Formulary.CommandLine

/-- Why a run fails after its arguments have been accepted. As recursion has no limit, there is no
error of an unexpected kind. -/
inductive RunError where
  | read (e : ReadError)
  | file (e : FileError)
  | decode (e : Text.Utf8.DecodeError)
  | blank (path : Path)
  /-- There is neither a text nor the name of a file. -/
  | noText
  deriving DecidableEq

namespace RunError

def exitCode : RunError → Nat
  | read (.unknownOperator _) => 3
  | read _ | noText => 2
  | file _ | decode _ | blank _ => 4

/-- What is wrong with reading no text at all. -/
def noTextReason : String := "'NoneType' object is not subscriptable"

def message : RunError → String
  | read (.unknownOperator symbol) =>
    unknownOperatorMessage symbol ++ " (known: " ++ Operator.symbolList ++ ")"
  | read e => "Formula parsing error: " ++ e.message
  | file e => "Formula file error: " ++ e.message
  | decode e => "Formula file error: " ++ e.message
  | blank path => "Formula file error: Formula file is empty: " ++ path.toString
  | noText => "Formula parsing error: Read failed: " ++ noTextReason

end RunError

/-- The text of the formula file: its lines with unified ends, without the blanks around it. -/
def fileText (files : FileSystem) (path : Path) : Except RunError String := do
  let bytes ← (files path).mapError .file
  let cs ← (Text.Utf8.decode bytes).mapError .decode
  match Text.trim (Text.unifyLineEnds cs) with
  | [] => .error (.blank path)
  | cs => .ok (String.ofList cs)

/-- Where the formula comes from. -/
inductive Source where
  | text (s : String)
  | file (path : Path)
  /-- The file option is given and has lost its value. -/
  | nothing
  deriving DecidableEq

/-- The source of the formula, if exactly one is given. -/
def Options.source? (o : Options) : Option Source :=
  match o.formula?, o.file? with
  | some s, none => some (.text s)
  | none, some (.name name) => some (.file (Path.ofString name))
  | none, some .dropped => some .nothing
  | _, _ => none

/-- The text of the formula. Where there is none, reading is tried all the same and fails. -/
def Source.load (files : FileSystem) : Source → Logged (Except RunError String)
  | text s => return .ok s
  | file path => return fileText files path
  | nothing => do
    Logged.debug "Reading formula: None"
    Logged.debug ("Unexpected reading error: " ++ RunError.noTextReason)
    return .error .noText

/-- The width of the longest operator name. -/
def nameWidth : Nat := (Operator.all.map (·.name.length)).foldl max 0

/-- Log the operator table. -/
def showSymbols : Logged Unit :=
  Operator.all.forM fun op =>
    Logged.info (Text.padRight nameWidth op.name ++ "  " ++ op.symbol)

/-- Log the outline of a formula. -/
def showOutline (f : Formula) : Logged Unit := f.outline.forM Logged.info

/-- Log the atoms, the depth and the operator counts of a formula. -/
def showStatistics (f : Formula) : Logged Unit := do
  Logged.info ("Atoms: " ++ ", ".intercalate (← f.collectAtoms))
  Logged.info ("Depth: " ++ toString (← f.measureDepth))
  let counts ← f.countOperators
  counts.table.forM fun (op, n) =>
    Logged.info ("  " ++ Text.padRight 3 op.symbol ++ " " ++ toString n)

/-- Read the formula and log what the options ask for. -/
def showFormula (o : Options) (files : FileSystem) (source : Source) :
    Logged (Except RunError Unit) := do
  match ← source.load files with
  | .error e => return .error e
  | .ok text =>
    match ← Formula.read text with
    | .error e => return .error (.read e)
    | .ok f =>
      Logged.info f.render
      if o.tree then showOutline f
      if o.stats then showStatistics f
      return .ok ()

/-- How a run ends: its exit code, and what it writes besides its records. -/
structure Outcome where
  exitCode : Nat
  output : String
  errors : String
  deriving DecidableEq

def Outcome.quiet (exitCode : Nat) : Outcome := ⟨exitCode, "", ""⟩

/-- The end of a run with wrong arguments: the usage and the error. -/
def Outcome.usageError (e : ArgumentError) : Outcome :=
  ⟨2, "", usage ++ program ++ ": error: " ++ e.message ++ "\n"⟩

/-- A run with options. Every error is one of `RunError`, so no run ends with the exit code 5. -/
def Options.run (o : Options) (files : FileSystem) : Logged Outcome := do
  if o.symbols then
    showSymbols
    return .quiet 0
  else
    match o.source? with
    | none => return .usageError .oneSource
    | some source =>
      match ← showFormula o files source with
      | .ok () => return .quiet 0
      | .error e =>
        Logged.error e.message
        return .quiet e.exitCode

/-- The logger for a run with options. -/
def Options.configure (o : Options) (l : Logger) : Logger := l.configure (!o.quiet) o.debug

/-- A run of the program: its end, the records that it writes, and the logger afterwards. Wrong
arguments and requests for help leave the logger as it is. -/
def run (files : FileSystem) (arguments : List String) (l : Logger) :
    Outcome × List Record × Logger :=
  match Request.ofArguments arguments with
  | .error e => (.usageError e, [], l)
  | .ok .help => (⟨0, help, ""⟩, [], l)
  | .ok (.options o) =>
    let l := o.configure l
    let (outcome, records) := (o.run files).run l
    (outcome, records, l)

end Formulary.CommandLine
