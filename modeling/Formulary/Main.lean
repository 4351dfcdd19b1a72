import Formulary.CommandLine.Run

/-!
# The program
-/

open Formulary

/-- The system's number of an error; some of them come negated, in 32 bits. -/
def systemCode (e : IO.Error) : Nat :=
  match e with
  | .noFileOrDirectory _ code _ | .inappropriateType _ code _ | .permissionDenied _ code _
  | .invalidArgument _ code _ | .resourceExhausted _ code _ | .otherError code _ =>
    if UInt32.size / 2 < code.toNat then UInt32.size - code.toNat else code.toNat
  | _ => FileError.Cause.inputOutput.code

/-- The bytes of a file on disk. -/
def readFromDisk (path : Path) : IO (Except FileError (List UInt8)) := do
  let name := path.toString
  if '\x00' ∈ name.toList then return .error .nulCharacter
  try
    return .ok (← IO.FS.readBinFile name).toList
  catch e =>
    let cause := (FileError.Cause.ofCode? (systemCode e)).getD .inputOutput
    return .error (.refused cause path)

/-- The only file that a run opens is the one that its arguments name. -/
def filesFor (arguments : List String) : IO FileSystem := do
  match CommandLine.Request.ofArguments arguments with
  | .ok (.options o) =>
    match o.source? with
    | some (.file path) =>
      let bytes ← readFromDisk path
      return fun _ => bytes
    | _ => return Directory.empty.fileSystem
  | _ => return Directory.empty.fileSystem

def main (arguments : List String) : IO UInt32 := do
  let files ← filesFor arguments
  let (outcome, records, _) := CommandLine.run files arguments Logger.initial
  IO.print (String.join (records.map Record.line) ++ outcome.output)
  IO.eprint outcome.errors
  return outcome.exitCode.toUInt32
