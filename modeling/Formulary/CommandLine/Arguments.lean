import Formulary.CommandLine.Flag
import Formulary.Text.Digit
import Formulary.Text.Quoted

/-!
# Command-line arguments

What a list of arguments asks for. Long options may be abbreviated, short ones may be bundled, and
a value may be attached to its option or follow it. After the first `--` no argument is an option.

The rules are those of argparse 3.11.8. Two of them are not those of all its releases:

* A `--` attached to an option as its value is taken for a separator and dropped, so the option is
  given and yet has no value.
* In a bundle of short options all that comes after one with a value is its value, an equals sign
  included: `-qf=x` has the value `=x`. An equals sign right after the first one, if that has no
  value, is passed over: `-q=h` is `-q -h`.
-/

namespace Formulary.CommandLine

/-- What is wrong with a list of arguments. -/
inductive ArgumentError where
  | ambiguous (argument : String) (candidates : List String)
  | missingValue (flag : Flag)
  | ignoredValue (flag : Flag) (value : String)
  | unrecognized (arguments : List String)
  | oneSource
  deriving DecidableEq

def ArgumentError.message : ArgumentError → String
  | ambiguous argument candidates =>
    "ambiguous option: " ++ argument ++ " could match " ++ ", ".intercalate candidates
  | missingValue flag => "argument " ++ flag.title ++ ": expected one argument"
  | ignoredValue flag value =>
    "argument " ++ flag.title ++ ": ignored explicit argument " ++ Text.quoted value
  | unrecognized arguments => "unrecognized arguments: " ++ " ".intercalate arguments
  | oneSource => "give exactly one of FORMULA or --file"

/-- One argument, taken by itself. -/
inductive Argument where
  | operand (text : String)
  /-- The first `--`. -/
  | separator
  /-- An option as it was spelled in full, with a value attached to it. -/
  | option (flag : Flag) (spelling : String) (value? : Option String)
  /-- What looks like an option and is none. -/
  | stray (text : String)
  deriving DecidableEq

/-- A negative number, with or without a decimal point; a line end may follow. -/
def isNegativeNumber (s : String) : Bool :=
  match s.toList with
  | '-' :: cs =>
    let cs := if cs.getLast? = some '\n' then cs.dropLast else cs
    match cs.dropWhile Text.isDigit with
    | [] => cs != []
    | '.' :: decimals => decimals != [] && decimals.all Text.isDigit
    | _ => false
  | _ => false

/-- An argument split at its first equals sign. -/
def splitAssignment (s : String) : String × Option String :=
  match s.toList.dropWhile (· != '=') with
  | [] => (s, none)
  | _ :: value => (String.ofList (s.toList.takeWhile (· != '=')), some (String.ofList value))

/-- The options that an argument may stand for when it is not spelled in full: any long option
that it begins, or the short option at its front, with the rest attached. -/
def candidates (s : String) : List Argument :=
  match s.toList with
  | '-' :: '-' :: _ =>
    let (start, value?) := splitAssignment s
    (Flag.table.filter fun (spelling, _) => start.toList.isPrefixOf spelling.toList).map
      fun (spelling, flag) => .option flag spelling value?
  | '-' :: c :: rest =>
    let spelling := String.ofList ['-', c]
    match Flag.ofSpelling? spelling with
    | some flag => [.option flag spelling (some (String.ofList rest))]
    | none => []
  | _ => []

/-- The spelling of an option. -/
def Argument.spelling : Argument → String
  | option _ spelling _ => spelling
  | operand text | stray text => text
  | separator => "--"

/-- An argument before the first `--`. -/
def classify (s : String) : Except ArgumentError Argument :=
  if s.toList.head? != some '-' then .ok (.operand s)
  else match Flag.ofSpelling? s with
    | some flag => .ok (.option flag s none)
    | none =>
      if s = "-" then .ok (.operand s)
      else
        let (start, value?) := splitAssignment s
        match value?, Flag.ofSpelling? start with
        | some value, some flag => .ok (.option flag start (some value))
        | _, _ =>
          match candidates s with
          | [argument] => .ok argument
          | [] =>
            if isNegativeNumber s || s.toList.contains ' ' then .ok (.operand s)
            else .ok (.stray s)
          | several => .error (.ambiguous s (several.map Argument.spelling))

/-- All arguments, each by itself. -/
def classifyAll : List String → Except ArgumentError (List Argument)
  | [] => .ok []
  | s :: rest =>
    if s = "--" then .ok (.separator :: rest.map .operand)
    else do
      let argument ← classify s
      return argument :: (← classifyAll rest)

/-- The value of the file option. -/
inductive FileValue where
  | name (s : String)
  /-- The value was a `--` and has been dropped. -/
  | dropped
  deriving DecidableEq

def FileValue.ofString (s : String) : FileValue :=
  if s = "--" then dropped else name s

/-- What the arguments ask for. -/
structure Options where
  formula? : Option String
  file? : Option FileValue
  tree : Bool
  stats : Bool
  symbols : Bool
  quiet : Bool
  debug : Bool
  deriving DecidableEq

def Options.empty : Options := ⟨none, none, false, false, false, false, false⟩

/-- An option without a value. -/
def Options.set (o : Options) : Flag → Options
  | .help | .file => o
  | .tree => { o with tree := true }
  | .stats => { o with stats := true }
  | .symbols => { o with symbols := true }
  | .quiet => { o with quiet := true }
  | .debug => { o with debug := true }

/-- The options written together in one argument, and what remains to be done about a value. -/
inductive Bundle where
  | complete (flags : List Flag)
  | attached (flags : List Flag) (flag : Flag) (value : String)
  | pending (flags : List Flag) (flag : Flag)

def Bundle.cons (flag : Flag) : Bundle → Bundle
  | complete flags => complete (flag :: flags)
  | attached flags last value => attached (flag :: flags) last value
  | pending flags last => pending (flag :: flags) last

/-- The options of a bundle of short options: after one without a value comes the next one. -/
def unbundle (flag : Flag) : List Char → Except ArgumentError Bundle
  | [] => .ok (if flag.takesValue then .pending [] flag else .complete [flag])
  | c :: rest =>
    if flag.takesValue then .ok (.attached [] flag (String.ofList (c :: rest)))
    else match Flag.ofSpelling? (String.ofList ['-', c]) with
      | some next => (Bundle.cons flag) <$> unbundle next rest
      | none => .error (.ignoredValue flag (String.ofList (c :: rest)))

/-- The options of one argument. Nothing can be attached to a long option without a value, nor an
empty value to a short one. -/
def bundle (flag : Flag) (spelling : String) : Option String → Except ArgumentError Bundle
  | none => unbundle flag []
  | some value =>
    if flag.takesValue then .ok (.attached [] flag value)
    else if spelling.length = 2 ∧ value ≠ "" then unbundle flag value.toList
    else .error (.ignoredValue flag value)

/-- A request for help, or the options. -/
inductive Request where
  | help
  | options (o : Options)
  deriving DecidableEq

/-- The arguments read so far. -/
structure Progress where
  options : Options
  /-- The place of the formula has been passed, with or without a formula. -/
  passed : Bool
  /-- The arguments that have no place. -/
  left : List String

def Progress.initial : Progress := ⟨.empty, false, []⟩

def Progress.take (p : Progress) (formula? : Option String) : Progress :=
  { p with options := { p.options with formula? := formula? }, passed := true }

def Progress.leave (p : Progress) (s : String) : Progress :=
  { p with left := p.left ++ [s] }

/-- Options without a value. -/
def Progress.set (p : Progress) (flags : List Flag) : Progress :=
  { p with options := flags.foldl Options.set p.options }

/-- The value of the last option that takes one. -/
def Progress.setFile (p : Progress) (value : String) : Progress :=
  { p with options := { p.options with file? := some (.ofString value) } }

/-- Go through the arguments from left to right. The first operand is the formula; a `--` right
before or right after it belongs to it. Help is given as soon as it is asked for. -/
def Progress.run (p : Progress) : List Argument → Except ArgumentError Request
  | [] => if p.left = [] then .ok (.options p.options) else .error (.unrecognized p.left)
  | .stray s :: rest => (p.leave s).run rest
  | .operand s :: .separator :: rest =>
    if p.passed then ((p.leave s).leave "--").run rest else (p.take (some s)).run rest
  | .operand s :: rest =>
    if p.passed then (p.leave s).run rest else (p.take (some s)).run rest
  | .separator :: .operand s :: rest =>
    if p.passed then ((p.leave "--").leave s).run rest else (p.take (some s)).run rest
  | .separator :: rest =>
    if p.passed then (p.leave "--").run rest else (p.take none).run rest
  | .option flag spelling value? :: rest =>
    match bundle flag spelling value? with
    | .error e => .error e
    | .ok (.complete flags) =>
      if .help ∈ flags then .ok .help else (p.set flags).run rest
    | .ok (.attached flags _ value) =>
      if .help ∈ flags then .ok .help else ((p.set flags).setFile value).run rest
    | .ok (.pending flags last) =>
      match rest with
      | .operand value :: rest =>
        if .help ∈ flags then .ok .help else ((p.set flags).setFile value).run rest
      | _ => .error (.missingValue last)

/-- What the arguments ask for. -/
def Request.ofArguments (arguments : List String) : Except ArgumentError Request := do
  Progress.initial.run (← classifyAll arguments)

end Formulary.CommandLine
