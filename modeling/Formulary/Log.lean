/-!
# Logging

Records with a severity, loggers that write the records severe enough for them, and computations
that log. A logger passes a record to each of its handlers, and a handler writes it unless its own
threshold is higher. A logger knows nothing of the computation, so a level can only filter.
-/

namespace Formulary

inductive Severity where
  | debug
  | info
  | warning
  | error
  deriving DecidableEq

namespace Severity

def rank : Severity → Nat
  | debug => 10
  | info => 20
  | warning => 30
  | error => 40

def name : Severity → String
  | debug => "DEBUG"
  | info => "INFO"
  | warning => "WARNING"
  | error => "ERROR"

def ofName? (s : String) : Option Severity :=
  [debug, info, warning, error].find? (·.name == s)

instance : LE Severity := ⟨fun a b => a.rank ≤ b.rank⟩

instance (a b : Severity) : Decidable (a ≤ b) := inferInstanceAs (Decidable (a.rank ≤ b.rank))

theorem le_def {a b : Severity} : a ≤ b ↔ a.rank ≤ b.rank := Iff.rfl

@[simp] theorem debug_le (a : Severity) : debug ≤ a := by
  cases a <;> decide

protected theorem le_refl (a : Severity) : a ≤ a := Nat.le_refl _

protected theorem le_trans {a b c : Severity} (h : a ≤ b) (h' : b ≤ c) : a ≤ c :=
  Nat.le_trans h h'

end Severity

structure Record where
  severity : Severity
  message : String
  deriving DecidableEq

/-- The line of a record: informative ones are shown as they are, others after their severity. -/
def Record.line (r : Record) : String :=
  match r.severity with
  | .info => r.message ++ "\n"
  | s => "[" ++ s.name ++ "] " ++ r.message ++ "\n"

/-- A destination of records with a threshold of its own. -/
structure Handler where
  level : Severity
  deriving DecidableEq

structure Logger where
  name : String
  level : Severity
  handlers : List Handler
  /-- Whether records also go to the loggers above this one. -/
  propagate : Bool
  deriving DecidableEq

namespace Logger

/-- The name of a logger that is asked for; the nameless one is the root of all loggers. -/
def properName (name : String) : String := if name = "" then "root" else name

/-- A logger that nobody has set up yet. It has no handlers, and the level of the root counts for
it. -/
def unconfigured (name : String) : Logger where
  name := properName name
  level := .warning
  handlers := []
  propagate := true

/-- Set a logger up for records from a level on. Handlers that it has had before are dropped, or
records would be written twice. -/
def setUp (l : Logger) (level : Severity) : Logger :=
  { l with level := level, handlers := [⟨level⟩], propagate := false }

/-- A new logger, set up for records from a level on. -/
def create (name : String) (level : Severity) : Logger := (unconfigured name).setUp level

/-- The logger of a new session. -/
def initial : Logger := create "golo_spec" .info

/-- The level of a logger is also that of its handlers. -/
def setLevel (l : Logger) (level : Severity) : Logger :=
  { l with level := level, handlers := l.handlers.map fun _ => ⟨level⟩ }

/-- The level for a choice of verbosity; `debug` wins over `verbose`. -/
def chosenLevel (verbose debug : Bool) : Severity :=
  if debug then .debug else if verbose then .info else .warning

def configure (l : Logger) (verbose debug : Bool) : Logger :=
  l.setLevel (chosenLevel verbose debug)

/-- Records of severity `s` are passed on to the handlers. -/
def enabled (l : Logger) (s : Severity) : Bool := decide (l.level ≤ s)

/-- What is written of a record, one copy for each handler that accepts it. -/
def emit (l : Logger) (r : Record) : List Record :=
  if l.enabled r.severity then
    (l.handlers.filter fun h => decide (h.level ≤ r.severity)).map fun _ => r
  else []

/-- One handler, at the level of the logger, and no propagation: every record that is severe
enough is written once. -/
structure WellFormed (l : Logger) : Prop where
  handlers : l.handlers = [⟨l.level⟩]
  propagate : l.propagate = false

/-- Once it is set up, nothing shows what a logger has been used for before. -/
theorem setUp_eq_create {l : Logger} {name : String} (h : l.name = properName name)
    (level : Severity) : l.setUp level = create name level := by
  rw [setUp, h]
  rfl

theorem wellFormed_setUp (l : Logger) (level : Severity) : (l.setUp level).WellFormed :=
  ⟨rfl, rfl⟩

theorem wellFormed_create (name : String) (level : Severity) : (create name level).WellFormed :=
  wellFormed_setUp _ level

theorem WellFormed.setLevel {l : Logger} (H : l.WellFormed) (level : Severity) :
    (l.setLevel level).WellFormed :=
  ⟨by simp [Logger.setLevel, H.handlers], H.propagate⟩

@[simp] theorem level_create (name : String) (level : Severity) :
    (create name level).level = level := rfl

@[simp] theorem level_setLevel (l : Logger) (level : Severity) :
    (l.setLevel level).level = level := rfl

@[simp] theorem name_setLevel (l : Logger) (level : Severity) :
    (l.setLevel level).name = l.name := rfl

theorem WellFormed.emit {l : Logger} (H : l.WellFormed) (r : Record) :
    l.emit r = if l.level ≤ r.severity then [r] else [] := by
  by_cases h : l.level ≤ r.severity <;> simp [Logger.emit, enabled, H.handlers, h]

end Logger

/-- A computation that logs: under a logger it has a value and the records it writes. -/
def Logged (α : Type) := Logger → α × List Record

namespace Logged

def run (x : Logged α) (l : Logger) : α × List Record := x l

/-- The value of a computation under a logger. -/
def value (x : Logged α) (l : Logger) : α := (x.run l).1

/-- The records that a computation writes under a logger. -/
def records (x : Logged α) (l : Logger) : List Record := (x.run l).2

instance : Monad Logged where
  pure a := fun _ => (a, [])
  bind x f := fun l =>
    let (a, rs) := x l
    let (b, rs') := f a l
    (b, rs ++ rs')

instance : LawfulMonad Logged := by
  refine LawfulMonad.mk' Logged ?_ ?_ ?_
  · intro α x
    funext l
    change ((x l).1, (x l).2 ++ []) = x l
    rw [List.append_nil]
  · intro α β a f
    rfl
  · intro α β γ x f g
    funext l
    simp only [bind, List.append_assoc]

@[simp] theorem run_pure (a : α) (l : Logger) : (pure a : Logged α).run l = (a, []) := rfl

@[simp] theorem run_bind (x : Logged α) (f : α → Logged β) (l : Logger) :
    (x >>= f).run l =
      (((f (x.run l).1).run l).1, (x.run l).2 ++ ((f (x.run l).1).run l).2) := rfl

@[simp] theorem value_bind (x : Logged α) (f : α → Logged β) (l : Logger) :
    (x >>= f).value l = (f (x.value l)).value l := rfl

@[simp] theorem records_bind (x : Logged α) (f : α → Logged β) (l : Logger) :
    (x >>= f).records l = x.records l ++ (f (x.value l)).records l := rfl

/-- Log one record. -/
def log (severity : Severity) (message : String) : Logged Unit :=
  fun l => ((), l.emit ⟨severity, message⟩)

@[simp] theorem run_log (severity : Severity) (message : String) (l : Logger) :
    (log severity message).run l = ((), l.emit ⟨severity, message⟩) := rfl

def debug (message : String) : Logged Unit := log .debug message

def info (message : String) : Logged Unit := log .info message

def error (message : String) : Logged Unit := log .error message

/-- Run `x` only if records of severity `s` are written. -/
def whenEnabled (s : Severity) (x : Logged Unit) : Logged Unit :=
  fun l => if l.enabled s then x l else ((), [])

theorem records_whenEnabled (s : Severity) (x : Logged Unit) (l : Logger) :
    (whenEnabled s x).records l = if l.enabled s then x.records l else [] := by
  change (if l.enabled s then x l else ((), [])).2 = _
  split <;> rfl

end Logged

end Formulary
