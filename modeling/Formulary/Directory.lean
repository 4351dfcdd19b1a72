import Formulary.Path
import Formulary.Text.Quoted

/-!
# Opening files

The bytes that a path leads to, or why it leads to none. A file system answers for any path; that of
a working directory follows the names of the path one by one. Outside the directory it knows what
every system has: the directories above, the root, the directories in it, and the null device.
-/

namespace Formulary

namespace FileError

/-- Why the system refuses to open a file. -/
inductive Cause where
  | notFound
  | inputOutput
  | permissionDenied
  | notDirectory
  | isDirectory
  | nameTooLong
  deriving DecidableEq

/-- The number that the system has for a cause. -/
def Cause.code : Cause → Nat
  | notFound => 2
  | inputOutput => 5
  | permissionDenied => 13
  | notDirectory => 20
  | isDirectory => 21
  | nameTooLong => 36

def Cause.reason : Cause → String
  | notFound => "No such file or directory"
  | inputOutput => "Input/output error"
  | permissionDenied => "Permission denied"
  | notDirectory => "Not a directory"
  | isDirectory => "Is a directory"
  | nameTooLong => "File name too long"

def Cause.ofCode? (code : Nat) : Option Cause :=
  [notFound, inputOutput, permissionDenied, notDirectory, isDirectory, nameTooLong].find?
    (·.code == code)

end FileError

/-- Why a file cannot be opened. -/
inductive FileError where
  | refused (cause : FileError.Cause) (path : Path)
  | nulCharacter
  deriving DecidableEq

def FileError.message : FileError → String
  | refused cause path =>
    "[Errno " ++ toString cause.code ++ "] " ++ cause.reason ++ ": " ++
      Text.quoted path.toString
  | nulCharacter => "embedded null byte"

/-- How files are opened. -/
abbrev FileSystem := Path → Except FileError (List UInt8)

inductive Directory.Entry where
  | file (bytes : List UInt8)
  | directory
  deriving DecidableEq

/-- The entries of a working directory, by their names from there downwards. -/
structure Directory where
  entries : List (List String × Directory.Entry)

namespace Directory

def empty : Directory := ⟨[]⟩

def insert (d : Directory) (name : String) (e : Entry) : Directory :=
  ⟨((Path.ofString name).names, e) :: d.entries⟩

/-- The directories of every system, below the root. -/
def standardNames : List String :=
  ["bin", "boot", "dev", "etc", "home", "lib", "media", "mnt", "opt", "proc", "root", "run",
    "sbin", "srv", "sys", "tmp", "usr", "var"]

/-- What every system has, by the names from the root downwards. -/
def standard : Directory :=
  ⟨(["dev", "null"], .file []) :: standardNames.map fun name => ([name], .directory)⟩

/-- A directory on the way of a path. -/
inductive Place where
  /-- The working directory or one inside it. -/
  | inside (names : List String)
  /-- A directory above the working directory. -/
  | above
  /-- The root or a directory of `standard`. -/
  | absolute (names : List String)

/-- The directory above; that of the root is the root. -/
def Place.up : Place → Place
  | inside [] => above
  | inside names => inside names.dropLast
  | above => above
  | absolute names => absolute names.dropLast

/-- The place below another one that has this name. -/
def Place.down (name : String) : Place → Place
  | inside names => inside (names ++ [name])
  | above => above
  | absolute names => absolute (names ++ [name])

/-- What stands below a place under this name. -/
def entry? (d : Directory) (name : String) : Place → Option Entry
  | .inside names => d.entries.lookup (names ++ [name])
  | .above => none
  | .absolute names => standard.entries.lookup (names ++ [name])

/-- The longest name and the longest path, in bytes. -/
def maxNameSize : Nat := 255

def maxPathSize : Nat := 4095

/-- Follow the names of `path` that are left. -/
def follow (d : Directory) (path : Path) (place : Place) :
    List String → Except FileError (List UInt8)
  | [] => .error (.refused .isDirectory path)
  | name :: rest =>
    if name = ".." then d.follow path place.up rest
    else if maxNameSize < name.utf8ByteSize then .error (.refused .nameTooLong path)
    else match d.entry? name place with
      | none => .error (.refused .notFound path)
      | some .directory => d.follow path (place.down name) rest
      | some (.file bytes) =>
        if rest = [] then .ok bytes else .error (.refused .notDirectory path)

/-- Files as they are opened from the working directory `d`. -/
def fileSystem (d : Directory) : FileSystem := fun path =>
  if '\x00' ∈ path.toString.toList then .error .nulCharacter
  else if maxPathSize < path.toString.utf8ByteSize then .error (.refused .nameTooLong path)
  else d.follow path (if path.isAbsolute then .absolute [] else .inside []) path.names

end Directory

end Formulary
