import Formulary.Session

/-!
# The logger of a session

A session keeps its logger well-formed (`Session.State.wellFormed_run`): one handler at the level of
the logger, and no propagation. So a record is written once or not at all, whatever loggers stand
above this one (`Logger.WellFormed.written`). What a command does to the level can be read off the
command (`Session.Command.level?`), and a command that sets no level leaves the logger alone.
-/

namespace Formulary

namespace Logger

/-- The records that come of one by propagation: the handlers of a logger write it, and if the
logger propagates, so do those of the loggers above, the nearest of which comes next. -/
def deliver (r : Record) : List Logger → List Record
  | [] => []
  | l :: above =>
    (l.handlers.filter fun h => decide (h.level ≤ r.severity)).map (fun _ => r) ++
      if l.propagate then deliver r above else []

/-- What is written of a record that is logged below these loggers. -/
def written (l : Logger) (above : List Logger) (r : Record) : List Record :=
  if l.enabled r.severity then deliver r (l :: above) else []

/-- The loggers above have no part in what is written. -/
theorem WellFormed.written {l : Logger} (H : l.WellFormed) (above : List Logger) (r : Record) :
    l.written above r = l.emit r := by
  rw [Logger.written, Logger.emit, deliver, H.propagate]
  simp

end Logger

namespace Session
open CommandLine

/-- The level that a command sets, if it sets one. -/
def Command.level? : Command → Option Severity
  | setLevel level | newLogger _ level => some level
  | configure verbose debug => some (Logger.chosenLevel verbose debug)
  | commandLine _ arguments =>
    match Request.ofArguments arguments with
    | .ok (.options o) => some (Logger.chosenLevel (!o.quiet) o.debug)
    | .ok .help | .error _ => none
  | query _ | getLogger _ => none

namespace State
variable {s : State}

/-! ### One command -/

theorem name_loggerOf (name : String) : (s.loggerOf name).name = Logger.properName name := by
  rw [loggerOf]
  cases h : (s.logger :: s.retired).find? (·.name = Logger.properName name) with
  | none => rfl
  | some l => simpa using List.find?_some h

/-- A logger that is set up is like a new one, also if its name has been in use. -/
theorem logger_step_newLogger (name : String) (level : Severity) :
    (s.step (.newLogger name level)).2.2.logger = Logger.create name level :=
  Logger.setUp_eq_create (name_loggerOf name) level

/-- Queries have no part in the logger, whether they fail or not. -/
theorem logger_step_query (q : Query) : (s.step (.query q)).2.2.logger = s.logger := by
  dsimp only [step]
  split <;> rfl

/-- A record that is logged in a session is written as its logger does it. -/
theorem records_step_log (severity : Severity) (message : String) :
    (s.step (.query (.log severity message))).2.1 = s.logger.emit ⟨severity, message⟩ := by
  have hrecords : (s.step (.query (.log severity message))).2.1 =
      s.logger.emit ⟨severity, message⟩ ++ [] ++ [] ++ [] := rfl
  simpa only [List.append_nil] using hrecords

/-- Arguments that are accepted set the level, whatever comes of the run. -/
theorem logger_step_commandLine (files : Directory) (arguments : List String) :
    (s.step (.commandLine files arguments)).2.2.logger =
      (Command.level? (.commandLine files arguments)).elim s.logger s.logger.setLevel := by
  dsimp only [step, CommandLine.run, Command.level?]
  cases h : Request.ofArguments arguments with
  | error e => rfl
  | ok request =>
    cases request with
    | help => rfl
    | options o => rfl

theorem level_step (c : Command) :
    (s.step c).2.2.logger.level = c.level?.getD s.logger.level := by
  cases c with
  | query q => rw [logger_step_query]; rfl
  | setLevel | configure | getLogger => rfl
  | newLogger name level => rw [logger_step_newLogger]; rfl
  | commandLine files arguments =>
    rw [logger_step_commandLine]
    cases Command.level? (.commandLine files arguments) <;> rfl

theorem logger_step_of_level? (c : Command) (h : c.level? = none) :
    (s.step c).2.2.logger = s.logger := by
  cases c with
  | query q => exact logger_step_query q
  | getLogger => rfl
  | setLevel | configure | newLogger => cases h
  | commandLine files arguments =>
    rw [logger_step_commandLine, h]
    rfl

theorem wellFormed_step (H : s.logger.WellFormed) (c : Command) :
    (s.step c).2.2.logger.WellFormed := by
  cases c with
  | query q => rw [logger_step_query]; exact H
  | getLogger => exact H
  | setLevel | configure => exact H.setLevel _
  | newLogger name level =>
    rw [logger_step_newLogger]
    exact Logger.wellFormed_create name level
  | commandLine files arguments =>
    rw [logger_step_commandLine]
    cases Command.level? (.commandLine files arguments) with
    | none => exact H
    | some level => exact H.setLevel level

/-! ### Whole sessions -/

theorem wellFormed_run (commands : List Command) : (initial.run commands).logger.WellFormed := by
  have hrun : ∀ s : State, s.logger.WellFormed → (s.run commands).logger.WellFormed := by
    induction commands with
    | nil => exact fun s H => H
    | cons c commands ih => exact fun s H => ih _ (wellFormed_step H c)
  exact hrun initial (Logger.wellFormed_create ..)

/-- After any commands the logger has one handler, at its own level, and does not propagate, so
that it writes a record once or not at all. The next command sets the level that it names, and a
command that names none leaves the logger as it is. -/
theorem logger_over_sessions (commands : List Command) :
    let s := initial.run commands
    (s.logger.handlers = [⟨s.logger.level⟩] ∧ s.logger.propagate = false) ∧
    (∀ above r, s.logger.written above r = (if s.logger.level ≤ r.severity then [r] else []) ∧
      s.logger.emit r = s.logger.written above r) ∧
    (∀ severity message, (s.step (.query (.log severity message))).2.1 =
      if s.logger.level ≤ severity then [⟨severity, message⟩] else []) ∧
    (∀ c, (s.step c).2.2.logger.level = c.level?.getD s.logger.level ∧
      (c.level? = none → (s.step c).2.2.logger = s.logger)) ∧
    (∀ name, (s.step (.getLogger name)).1 = .loggerName s.logger.name ∧
      (s.step (.getLogger name)).2.2 = s) ∧
    ∀ name level, (s.step (.newLogger name level)).2.2.logger = Logger.create name level := by
  intro s
  have H : s.logger.WellFormed := wellFormed_run commands
  refine ⟨⟨H.handlers, H.propagate⟩, fun above r => ?_, fun severity message => ?_, fun c => ?_,
    fun name => ⟨rfl, rfl⟩, logger_step_newLogger⟩
  · exact ⟨(H.written above r).trans (H.emit r), (H.written above r).symm⟩
  · rw [records_step_log]
    exact H.emit _
  · exact ⟨level_step c, logger_step_of_level? c⟩

/-- A name that has been in use before, a run without a formula, and then a text that cannot be
read. -/
theorem logger_over_sessions_reused :
    let s := initial.run [.newLogger "audit" .debug, .commandLine .empty ["-q", "--tree"],
      .newLogger "golo_spec" .error]
    let c := Command.query (.read "(x")
    s.logger = Logger.create "golo_spec" .error ∧
      s.retired = [(Logger.create "audit" .debug).setLevel .warning] ∧
      c.level? = none ∧ (s.step c).2.2.logger = s.logger := by
  intro s c
  obtain ⟨-, -, -, H, -⟩ := logger_over_sessions [.newLogger "audit" .debug,
    .commandLine .empty ["-q", "--tree"], .newLogger "golo_spec" .error]
  exact ⟨rfl, rfl, rfl, (H c).2 rfl⟩

end State
end Session
end Formulary
