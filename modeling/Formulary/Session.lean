import Formulary.CommandLine.Run
import Formulary.Session.Query

/-!
# Sessions

A session is a sequence of commands on one state: the logger in use and those that were in use
before, and the nodes registered so far, to which later commands may refer. Each command has a
reply and writes records. Only the commands on the logger and the command line change the logger,
and a query that fails registers nothing.

The logger in use is there from the start. That the first request for a logger creates it, under
the name that is asked for, is left out: no state is without one.
-/

namespace Formulary.Session

structure State where
  logger : Logger
  /-- The loggers that were in use before. There is one logger for each name, so one of these comes
  back when a logger of its name is asked for. -/
  retired : List Logger
  registry : Array Node
  /-- The identity of the next new node. -/
  next : Nat

/-- A new session, with the logger that the first request would create if it asks for no name. -/
def State.initial : State := ⟨.initial, [], #[], 0⟩

inductive Command where
  | query (q : Query)
  | setLevel (level : Severity)
  | configure (verbose debug : Bool)
  /-- Ask for the logger. A session has one already, so none is created, and it is that one whatever
  name is asked for. -/
  | getLogger (name : String)
  /-- Set up the logger of this name, and use it in place of the present one. -/
  | newLogger (name : String) (level : Severity)
  | commandLine (files : Directory) (arguments : List String)

inductive Reply where
  | done
  | answered (a : Answer)
  | failed (f : Failure)
  | loggerName (name : String)
  | logger (l : Logger)
  | ended (o : CommandLine.Outcome)

/-- The logger of a name. -/
def State.loggerOf (s : State) (name : String) : Logger :=
  ((s.logger :: s.retired).find? (·.name = Logger.properName name)).getD (.unconfigured name)

/-- Use another logger. -/
def State.use (s : State) (l : Logger) : State :=
  { s with logger := l, retired := (s.logger :: s.retired).filter (·.name ≠ l.name) }

/-- One command: its reply, the records that it writes, and the state afterwards. -/
def State.step (s : State) : Command → Reply × List Record × State
  | .query q =>
    let ((result, next), records) := (((q.run s.registry).run).run s.next).run s.logger
    match result with
    | .ok (answer, registered) =>
      (.answered answer, records,
        { s with registry := s.registry ++ registered.toArray, next := next })
    | .error f => (.failed f, records, { s with next := next })
  | .setLevel level => (.done, [], { s with logger := s.logger.setLevel level })
  | .configure verbose debug =>
    (.done, [], { s with logger := s.logger.configure verbose debug })
  | .getLogger _ => (.loggerName s.logger.name, [], s)
  | .newLogger name level =>
    let l := (s.loggerOf name).setUp level
    (.logger l, [], s.use l)
  | .commandLine files arguments =>
    let (outcome, records, l) := CommandLine.run files.fileSystem arguments s.logger
    (.ended outcome, records, { s with logger := l })

/-- The state after some commands. -/
def State.run (s : State) (commands : List Command) : State :=
  commands.foldl (fun s c => (s.step c).2.2) s

end Formulary.Session
