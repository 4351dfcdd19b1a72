import Formulary.Proofs.Filtering

/-!
# Quiet and debugging runs

A run of the command line looks at its verbosity options only to set the level of the logger. So
two runs that differ in nothing else end alike, and of the records of the debugging one the other
writes those that are severe enough (`CommandLine.run_verbosity`).
-/

namespace Formulary
open Logged

namespace CommandLine

theorem filtered_load (files : FileSystem) (source : Source) : Filtered (source.load files) := by
  cases source with
  | text s | file path => exact .pure _
  | nothing => exact (Filtered.log ..).bind fun _ => (Filtered.log ..).bind fun _ => .pure _

theorem filtered_showSymbols : Filtered showSymbols := .forM (fun _ => .log ..) _

theorem filtered_showOutline (f : Formula) : Filtered (showOutline f) := .forM (fun _ => .log ..) _

theorem filtered_showStatistics (f : Formula) : Filtered (showStatistics f) := by
  refine f.filtered_collectAtoms.bind fun _ => (Filtered.log ..).bind fun _ => ?_
  refine f.filtered_measureDepth.bind fun _ => (Filtered.log ..).bind fun _ => ?_
  exact f.filtered_countOperators.bind fun _ => .forM (fun _ => .log ..) _

theorem filtered_showFormula (o : Options) (files : FileSystem) (source : Source) :
    Filtered (showFormula o files source) := by
  refine (filtered_load files source).bind fun loaded => ?_
  cases loaded with
  | error e => exact .pure _
  | ok text =>
    refine (Formula.filtered_read text).bind fun result => ?_
    cases result with
    | error e => exact .pure _
    | ok f =>
      have hend : Filtered (pure (.ok ()) : Logged (Except RunError Unit)) := .pure _
      have hstats := Filtered.ite (c := o.stats)
        ((filtered_showStatistics f).bind fun _ => hend) hend
      refine (Filtered.log ..).bind fun _ => ?_
      exact .ite ((filtered_showOutline f).bind fun _ => hstats) hstats

theorem Options.filtered_run (o : Options) (files : FileSystem) : Filtered (o.run files) := by
  unfold Options.run
  split
  · exact filtered_showSymbols.bind fun _ => .pure _
  · split
    · exact .pure _
    · refine (filtered_showFormula ..).bind fun result => ?_
      cases result with
      | ok u => exact .pure _
      | error e => exact (Filtered.log ..).bind fun _ => .pure _

theorem Options.run_withVerbosity (o : Options) (quiet debug : Bool) (files : FileSystem) :
    { o with quiet := quiet, debug := debug }.run files = o.run files := rfl

theorem run_of_ofArguments {arguments : List String} {o : Options} (files : FileSystem)
    (l : Logger) (h : Request.ofArguments arguments = .ok (.options o)) :
    run files arguments l =
      ((o.run files).value (o.configure l), (o.run files).records (o.configure l),
        o.configure l) := by
  unfold run
  rw [h]
  rfl

/-- Two runs that differ only in their verbosity end alike, and the records of the one are those of
the other, if that one is debugging, which are severe enough. -/
theorem run_verbosity {arguments arguments' : List String} {o o' : Options} (files : FileSystem)
    (l : Logger) (h : Request.ofArguments arguments = .ok (.options o))
    (h' : Request.ofArguments arguments' = .ok (.options o'))
    (hsame : { o with quiet := o'.quiet, debug := o'.debug } = o') :
    (run files arguments l).1 = (run files arguments' l).1 ∧
      (o'.debug = true → (run files arguments l).2.1 =
        (run files arguments' l).2.1.filter
          fun r => Logger.chosenLevel (!o.quiet) o.debug ≤ r.severity) := by
  have H := o.filtered_run files
  have hrun : o'.run files = o.run files := by
    rw [← hsame]
    exact o.run_withVerbosity o'.quiet o'.debug files
  rw [run_of_ofArguments files l h, run_of_ofArguments files l h', hrun]
  refine ⟨?_, fun hdebug => ?_⟩
  · have hvalue : (o.run files).value (o.configure l) = (o.run files).value (o'.configure l) :=
      (H.value l _).trans (H.value l _).symm
    exact hvalue
  · have hlevel : o'.configure l = l.setLevel .debug := by
      rw [Options.configure, Logger.configure, Logger.chosenLevel, if_pos hdebug]
    rw [hlevel]
    exact H.records l _

end CommandLine

open CommandLine

/-- Of whatever is done under a logger, the level decides only which records are written. -/
theorem level_only_filters :
    (∀ text, Filtered (Formula.read text)) ∧ (∀ text, Filtered (Lexing.scan text)) ∧
    (∀ symbol, Filtered (Operator.find symbol)) ∧
    (∀ f : Formula,
      Filtered f.collectAtoms ∧ Filtered f.countOperators ∧ Filtered f.measureDepth) ∧
    (∀ m next root, Filtered (Node.substitute m next root)) ∧
    (∀ registry (q : Session.Query), (q.run registry).Filtered) ∧
    ∀ files l arguments arguments' o o',
      Request.ofArguments arguments = .ok (.options o) →
      Request.ofArguments arguments' = .ok (.options o') →
      { o with quiet := o'.quiet, debug := o'.debug } = o' →
      (run files arguments l).1 = (run files arguments' l).1 ∧
        (o'.debug = true → (run files arguments l).2.1 =
          (run files arguments' l).2.1.filter
            fun r => Logger.chosenLevel (!o.quiet) o.debug ≤ r.severity) := by
  refine ⟨Formula.filtered_read, Lexing.filtered_scan, Operator.filtered_find, fun f => ?_,
    Node.filtered_substitute, Session.Query.filtered_run, ?_⟩
  · exact ⟨f.filtered_collectAtoms, f.filtered_countOperators, f.filtered_measureDepth⟩
  · intro files l arguments arguments' o o' h h' hsame
    exact run_verbosity files l h h' hsame

theorem level_only_filters_quiet :
    let o : Options := ⟨some "(x && y)", none, false, true, false, true, false⟩
    let o' : Options := { o with quiet := false, debug := true }
    let quietRun := run Directory.empty.fileSystem ["-q", "(x && y)", "--stats"] .initial
    let debugRun := run Directory.empty.fileSystem ["--stats", "--debug", "(x && y)"] .initial
    Request.ofArguments ["-q", "(x && y)", "--stats"] = .ok (.options o) ∧
      Request.ofArguments ["--stats", "--debug", "(x && y)"] = .ok (.options o') ∧
      quietRun.1 = debugRun.1 ∧
      quietRun.2.1 = debugRun.2.1.filter fun r => Severity.warning ≤ r.severity := by
  intro o o' quietRun debugRun
  have h : Request.ofArguments ["-q", "(x && y)", "--stats"] = .ok (.options o) := by
    rfl
  have h' : Request.ofArguments ["--stats", "--debug", "(x && y)"] = .ok (.options o') := by
    rfl
  obtain ⟨-, -, -, -, -, -, H⟩ := level_only_filters
  obtain ⟨hend, hrecords⟩ := H Directory.empty.fileSystem .initial _ _ o o' h h' rfl
  exact ⟨h, h', hend, hrecords rfl⟩

end Formulary
