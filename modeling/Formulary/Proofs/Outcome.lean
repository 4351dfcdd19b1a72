import Formulary.Proofs.Contents
import Formulary.Proofs.Verbosity
import Formulary.Proofs.Written

/-!
# How runs end

Reading and analysing write debug records only (`Logged.ForDebugging`). A run that is not debugging
is therefore known from the formula of its source, or from why there is none: it writes the lines
that its options ask for (`CommandLine.Options.report`), or one error and nothing else
(`CommandLine.Options.run_of_source`).
-/

namespace Formulary

/-! ### Debug records -/

namespace Logged
variable {l : Logger} {x : Logged α} {f : α → Logged β}

/-- Nothing is written unless the logger is debugging. -/
def ForDebugging (x : Logged α) : Prop := ∀ l : Logger, ¬ l.level ≤ .debug → x.records l = []

namespace ForDebugging

theorem pure (a : α) : ForDebugging (pure a : Logged α) := fun _ _ => rfl

theorem bind (Hx : ForDebugging x) (Hf : ∀ a, ForDebugging (f a)) : ForDebugging (x >>= f) := by
  intro l hl
  rw [records_bind, Hx l hl, Hf _ l hl, List.append_nil]

theorem debug (message : String) : ForDebugging (debug message) := by
  intro l hl
  exact if_neg fun h => hl (of_decide_eq_true h)

theorem whenEnabled {x : Logged Unit} (severity : Severity) (H : ForDebugging x) :
    ForDebugging (whenEnabled severity x) := by
  intro l hl
  rw [records_whenEnabled, H l hl, ite_self]

theorem readFailure (e : ReadError) : ForDebugging (readFailure e) := by
  cases e with
  | unexpected | unexpectedEnd => exact .pure ()
  | foreign c => exact (debug _).bind fun _ => debug _
  | unknownOperator symbol => exact debug _

theorem analysisResult (analysis : String) (f : Formula) (shown : String) (a : α) :
    ForDebugging (do
      analysisResult analysis f shown
      return a) :=
  (whenEnabled _ (debug _)).bind fun _ => pure a

/-- Only the value of such a computation is left. -/
theorem run_bind (H : ForDebugging x) (hl : ¬ l.level ≤ .debug) :
    (x >>= f).run l = (f (x.value l)).run l := by
  have hrecords : (x.run l).2 = [] := H l hl
  rw [Logged.run_bind, hrecords, List.nil_append]
  rfl

end ForDebugging

theorem run_bind_congr {f f' : α → Logged β} (h : ∀ a, (f a).run l = (f' a).run l) :
    (x >>= f).run l = (x >>= f').run l := by
  rw [Logged.run_bind, Logged.run_bind, h]

end Logged
open Logged

namespace Formula

theorem forDebugging_read (text : String) : ForDebugging (read text) := by
  refine (ForDebugging.debug _).bind fun _ => ForDebugging.bind ?_ fun result => ?_
  · unfold readQuietly
    split
    · exact .pure _
    · exact (ForDebugging.readFailure _).bind fun _ => .pure _
  · cases result with
    | ok f => exact (ForDebugging.whenEnabled _ (.debug _)).bind fun _ => .pure _
    | error e => exact .pure _

/-- The lines of the statistics: the atoms, the depth, and the operators that occur, in the order
of the operator table. -/
def statistics (f : Formula) : List String :=
  ("Atoms: " ++ ", ".intercalate f.atoms) :: ("Depth: " ++ toString f.depth) ::
    (Operator.all.filter fun op => 0 < f.counts.count op).map fun op =>
      "  " ++ Text.padRight 3 op.symbol ++ " " ++ toString (f.counts.count op)

end Formula

namespace CommandLine
open Text.Utf8 (encode)

variable {l : Logger} {files : FileSystem} {o : Options} {source : Source} {f : Formula}
  {e : RunError}

/-! ### What is written -/

theorem forDebugging_load (files : FileSystem) (source : Source) :
    ForDebugging (source.load files) := by
  cases source with
  | text s | file path => exact .pure _
  | nothing =>
    exact (ForDebugging.debug _).bind fun _ => (ForDebugging.debug _).bind fun _ => .pure _

theorem value_load (files : FileSystem) (source : Source) (l : Logger) :
    (source.load files).value l = source.contents files := by
  cases source <;> rfl

/-- The lines of the operator table. -/
def symbolLines : List String :=
  Operator.all.map fun op => Text.padRight nameWidth op.name ++ "  " ++ op.symbol

/-- The lines about a formula: its canonical text, its outline, its statistics. -/
def Options.report (o : Options) (f : Formula) : List String :=
  f.render :: ((if o.tree then f.outline else []) ++ if o.stats then f.statistics else [])

theorem run_forM_info (ms : List String) (l : Logger) :
    (ms.forM Logged.info).run l = ((), ms.flatMap fun m => l.emit ⟨.info, m⟩) := by
  induction ms with
  | nil => rfl
  | cons m ms ih =>
    change (Logged.info m >>= fun _ => ms.forM Logged.info).run l = _
    rw [run_bind, ih]
    rfl

theorem forM_table (t : Tally) (x : Operator → Nat → String) :
    (t.table.forM fun (op, n) => Logged.info (x op n)) =
      ((Operator.all.filter fun op => 0 < t.count op).map fun op => x op (t.count op)).forM
        Logged.info := by
  rw [Tally.table, List.filter_map]
  simp only [List.forM_eq_forM, List.forM_map]
  rfl

theorem run_showStatistics (f : Formula) (hl : ¬ l.level ≤ .debug) :
    (showStatistics f).run l = (f.statistics.forM Logged.info).run l := by
  have hatoms : ForDebugging f.collectAtoms := .analysisResult _ _ _ _
  have hdepth : ForDebugging f.measureDepth := .analysisResult _ _ _ _
  have hcounts : ForDebugging f.countOperators := .analysisResult _ _ _ _
  have htable := forM_table f.counts fun op n =>
    "  " ++ Text.padRight 3 op.symbol ++ " " ++ toString n
  rw [showStatistics, hatoms.run_bind hl]
  apply run_bind_congr
  intro _
  rw [hdepth.run_bind hl]
  apply run_bind_congr
  intro _
  rw [hcounts.run_bind hl]
  exact congrArg (fun x : Logged PUnit => x.run l) htable

theorem run_showFormula_of_ok (hl : ¬ l.level ≤ .debug) (h : source.formula files = .ok f) :
    (showFormula o files source).run l =
      (.ok (), (o.report f).flatMap fun m => l.emit ⟨.info, m⟩) := by
  obtain ⟨text, htext, hf⟩ := Source.formula_eq_ok_iff.mp h
  rw [← Source.contents_eq_ok_iff] at htext
  have hstats := run_showStatistics f hl
  have houtline : (showOutline f).run l = _ := run_forM_info f.outline l
  have hrender : (Logged.info f.render).run l = ((), l.emit ⟨.info, f.render⟩) := rfl
  rw [showFormula, (forDebugging_load files source).run_bind hl, value_load, htext]
  dsimp only
  rw [(Formula.forDebugging_read text).run_bind hl, Formula.value_read, hf]
  dsimp only
  rw [Options.report]
  cases o.tree <;> cases o.stats <;>
    simp only [Bool.false_eq_true, if_true, if_false, run_bind, run_pure, hrender, houtline, hstats,
      run_forM_info, List.flatMap_cons, List.flatMap_append, List.flatMap_nil, List.append_nil,
      List.nil_append]

theorem run_showFormula_of_error (hl : ¬ l.level ≤ .debug) (h : source.formula files = .error e) :
    (showFormula o files source).run l = (.error e, []) := by
  rw [showFormula, (forDebugging_load files source).run_bind hl, value_load]
  rcases bind_eq_error_iff.mp h with h | ⟨text, htext, h⟩
  · rw [h]
    rfl
  · rw [htext]
    dsimp only
    rw [(Formula.forDebugging_read text).run_bind hl, Formula.value_read]
    cases hp : Formula.parse text <;> rw [hp] at h <;> cases h
    rfl

namespace Options

theorem run_of_symbols (files : FileSystem) (l : Logger) (h : o.symbols = true) :
    (o.run files).run l = (.quiet 0, symbolLines.flatMap fun m => l.emit ⟨.info, m⟩) := by
  have hlines : showSymbols = symbolLines.forM Logged.info := by
    rw [showSymbols, symbolLines, List.forM_eq_forM, List.forM_eq_forM, List.forM_map]
  rw [Options.run, if_pos h, hlines, run_bind, run_forM_info]
  simp only [run_pure, List.append_nil]

theorem source?_eq_none_iff : o.source? = none ↔ (o.formula?.isSome ↔ o.file?.isSome) := by
  rcases o with ⟨_ | s, _ | _ | _, _, _, _, _, _⟩ <;> simp [source?]

theorem run_of_none (files : FileSystem) (l : Logger) (h : o.symbols = false)
    (hsource : o.source? = none) : (o.run files).run l = (.usageError .oneSource, []) := by
  rw [Options.run, if_neg (by simp [h]), hsource]
  rfl

theorem run_of_ok (h : o.symbols = false) (hsource : o.source? = some source)
    (hl : ¬ l.level ≤ .debug) (hf : source.formula files = .ok f) :
    (o.run files).run l = (.quiet 0, (o.report f).flatMap fun m => l.emit ⟨.info, m⟩) := by
  rw [Options.run, if_neg (by simp [h]), hsource]
  dsimp only
  rw [run_bind, run_showFormula_of_ok hl hf]
  simp only [run_pure, List.append_nil]

theorem run_of_error (h : o.symbols = false) (hsource : o.source? = some source)
    (hl : ¬ l.level ≤ .debug) (he : source.formula files = .error e) :
    (o.run files).run l = (.quiet e.exitCode, l.emit ⟨.error, e.message⟩) := by
  rw [Options.run, if_neg (by simp [h]), hsource]
  dsimp only
  rw [run_bind, run_showFormula_of_error hl he, run_bind]
  simp only [run_pure, List.append_nil, List.nil_append]
  rfl

end Options

/-! ### Verbosity -/

/-- Lines as a run writes them. -/
def Options.shown (o : Options) (ms : List String) : List Record :=
  if o.quiet then [] else ms.map fun m => ⟨.info, m⟩

namespace Options

theorem level_configure (l : Logger) (hd : o.debug = false) :
    (o.configure l).level = if o.quiet then .warning else .info := by
  rw [configure, Logger.configure, Logger.level_setLevel, hd]
  cases o.quiet <;> rfl

theorem not_debug_configure (l : Logger) (hd : o.debug = false) :
    ¬ (o.configure l).level ≤ .debug := by
  rw [level_configure l hd]
  cases o.quiet <;> decide

theorem flatMap_emit_info (H : l.WellFormed) (hd : o.debug = false) (ms : List String) :
    (ms.flatMap fun m => (o.configure l).emit ⟨.info, m⟩) = o.shown ms := by
  have H' : (o.configure l).WellFormed := H.setLevel _
  simp only [H'.emit, level_configure l hd, shown]
  cases o.quiet with
  | true => simp [Severity.le_def, Severity.rank]
  | false => simpa [Severity.le_def] using (List.map_eq_flatMap ..).symm

/-- The records of a run that has read its formula, or failed to. -/
def written (o : Options) : Except RunError Formula → List Record
  | .ok f => o.shown (o.report f)
  | .error e => [⟨.error, e.message⟩]

end Options

theorem emit_error (H : l.WellFormed) (message : String) :
    l.emit ⟨.error, message⟩ = [⟨.error, message⟩] := by
  have hlevel : l.level ≤ .error := by cases l.level <;> decide
  rw [H.emit, if_pos hlevel]

theorem Options.run_of_source (files : FileSystem) (H : l.WellFormed) (h : o.symbols = false)
    (hd : o.debug = false) (hsource : o.source? = some source) :
    (o.run files).run (o.configure l) =
      (.quiet (exitCodeOf (source.formula files)), o.written (source.formula files)) := by
  have hl := not_debug_configure l hd
  have H' : (o.configure l).WellFormed := H.setLevel _
  cases hr : source.formula files with
  | ok f =>
    rw [run_of_ok h hsource hl hr, flatMap_emit_info H hd]
    rfl
  | error e =>
    rw [run_of_error h hsource hl hr, emit_error H']
    rfl

/-! ### Ends -/

/-- How a run ends that is not debugging. With the operator table it ends well in any case, and
without exactly one source it ends before anything is read. Otherwise the exit code tells a file
without text, a malformed text, an unknown operator and a formula apart. Of a formula all lines are
written that the options ask for; of the rest one error is, and nothing before it. -/
theorem run_outcome {arguments : List String} (files : FileSystem) (H : l.WellFormed)
    (h : Request.ofArguments arguments = .ok (.options o)) (hd : o.debug = false) :
    let outcome := (run files arguments l).1
    let records := (run files arguments l).2.1
    (o.symbols = true → outcome = .quiet 0 ∧ records = o.shown symbolLines) ∧
    (o.symbols = false → (o.formula?.isSome ↔ o.file?.isSome) →
      outcome.exitCode = 2 ∧ records = []) ∧
    (o.symbols = false → ¬ (o.formula?.isSome ↔ o.file?.isSome) →
      ∃ source, o.source? = some source ∧ outcome = .quiet outcome.exitCode ∧
        outcome.exitCode ∈ [0, 2, 3, 4] ∧
        (outcome.exitCode = 4 ↔ ∃ path, source = .file path ∧ Textless files path) ∧
        (∀ s, source.Yields files s →
          (outcome.exitCode = 2 ↔
            ∃ e, Formula.parse s = .error e ∧ ∀ symbol, e ≠ .unknownOperator symbol) ∧
          (outcome.exitCode = 3 ↔ ∃ symbol, Formula.parse s = .error (.unknownOperator symbol)) ∧
          (outcome.exitCode = 0 ↔ ∃ f, Formula.parse s = .ok f)) ∧
        (source = .nothing → outcome.exitCode = 2) ∧
        (outcome.exitCode = 0 → ∃ s f, source.Yields files s ∧ Formula.parse s = .ok f ∧
          records = o.shown (o.report f)) ∧
        (outcome.exitCode ≠ 0 → ∃ e, source.formula files = .error e ∧
          outcome.exitCode = e.exitCode ∧ records = [⟨.error, e.message⟩])) := by
  rw [run_of_ofArguments files l h]
  refine ⟨fun hsymbols => ?_, fun hsymbols hsources => ?_, fun hsymbols hsources => ?_⟩
  · have hrun := Options.run_of_symbols files (o.configure l) hsymbols
    rw [Options.flatMap_emit_info H hd] at hrun
    exact ⟨congrArg Prod.fst hrun, congrArg Prod.snd hrun⟩
  · have hrun := Options.run_of_none files (o.configure l) hsymbols
      (Options.source?_eq_none_iff.mpr hsources)
    exact ⟨congrArg (fun p => p.1.exitCode) hrun, congrArg Prod.snd hrun⟩
  · obtain ⟨source, hsource⟩ := Option.ne_none_iff_exists'.mp
      (mt Options.source?_eq_none_iff.mp hsources)
    have hrun := Options.run_of_source files H hsymbols hd hsource
    have houtcome : (o.run files).value (o.configure l) = _ := congrArg Prod.fst hrun
    have hrecords : (o.run files).records (o.configure l) = _ := congrArg Prod.snd hrun
    refine ⟨source, hsource, ?_⟩
    simp only [houtcome, hrecords]
    refine ⟨rfl, ?_, exitCodeOf_formula_eq_four_iff files source, fun s Hs => ?_, ?_, ?_, ?_⟩
    · cases source.formula files with
      | ok f => exact List.mem_cons_self
      | error e => exact List.mem_cons_of_mem 0 (exitCode_mem e)
    · obtain ⟨hmalformed, hoperator, hok, -⟩ := Hs.exitCode_iff
      exact ⟨hmalformed, hoperator, hok⟩
    · rintro rfl
      rfl
    · intro hcode
      obtain ⟨f, hr⟩ := exitCodeOf_eq_zero_iff.mp hcode
      obtain ⟨s, Hs, hs⟩ := Source.formula_eq_ok_iff.mp hr
      exact ⟨s, f, Hs, hs, by rw [hr, Options.written]⟩
    · intro hcode
      cases hr : source.formula files with
      | ok f => exact absurd (exitCodeOf_eq_zero_iff.mpr ⟨f, hr⟩) hcode
      | error e => exact ⟨e, rfl, rfl, rfl⟩

theorem run_outcome_missing_file :
    let files : FileSystem := fun path => .error (.refused .notFound path)
    let o : Options := ⟨none, some (.name "spec"), true, false, false, false, false⟩
    let run := run files ["--tree", "-f", "spec"] .initial
    Logger.initial.WellFormed ∧
      Request.ofArguments ["--tree", "-f", "spec"] = .ok (.options o) ∧
      run.1.exitCode = 4 ∧ ∃ e : RunError, e.exitCode = 4 ∧ run.2.1 = [⟨.error, e.message⟩] := by
  intro files o run
  have H : Logger.initial.WellFormed := Logger.wellFormed_create _ _
  have h : Request.ofArguments ["--tree", "-f", "spec"] = .ok (.options o) := by
    rfl
  obtain ⟨-, -, hsource⟩ := run_outcome files H h rfl
  obtain ⟨_, ⟨⟩, -, -, hfour, -, -, -, herror⟩ := hsource rfl (by decide)
  have hcode : run.1.exitCode = 4 := hfour.mpr ⟨_, rfl, .inl ⟨_, rfl⟩⟩
  have hzero : run.1.exitCode ≠ 0 := by
    rw [hcode]
    decide
  obtain ⟨e, -, he, hrecords⟩ := herror hzero
  exact ⟨H, h, hcode, e, he.symm.trans hcode, hrecords⟩

/-- Runs with sources of the same formula are the same. -/
theorem Options.run_congr {o' : Options} {source' : Source} (hl : ¬ l.level ≤ .debug)
    (hsource : o.source? = some source) (hsource' : o'.source? = some source')
    (hsame : { o with formula? := o'.formula?, file? := o'.file? } = o')
    (hformula : source'.formula files = source.formula files) (hsymbols : o.symbols = false) :
    (o'.run files).run l = (o.run files).run l := by
  have hsymbols' : o'.symbols = false := by rw [← hsame]; exact hsymbols
  cases hr : source.formula files with
  | ok f =>
    rw [run_of_ok hsymbols hsource hl hr, run_of_ok hsymbols' hsource' hl (hformula.trans hr),
      ← hsame]
    rfl
  | error e =>
    rw [run_of_error hsymbols hsource hl hr, run_of_error hsymbols' hsource' hl (hformula.trans hr)]

/-- A formula, or a text that is none for its operators alone, may as well be given in a file. -/
theorem run_file_eq_run_text {arguments arguments' : List String} {text name : String}
    {tree stats quiet : Bool} (files : FileSystem) (l : Logger)
    (h : Request.ofArguments arguments =
      .ok (.options ⟨some text, none, tree, stats, false, quiet, false⟩))
    (h' : Request.ofArguments arguments' =
      .ok (.options ⟨none, some (.name name), tree, stats, false, quiet, false⟩))
    (hfile : files (Path.ofString name) = .ok (encode text.toList))
    (hread : (∃ f, Formula.parse text = .ok f) ∨
      ∃ symbol, Formula.parse text = .error (.unknownOperator symbol)) :
    run files arguments' l = run files arguments l ∧
      ((∃ f, Formula.parse text = .ok f) → (run files arguments l).1 = .quiet 0) ∧
      ((∃ symbol, Formula.parse text = .error (.unknownOperator symbol)) →
        (run files arguments l).1 = .quiet 3) := by
  let o : Options := ⟨some text, none, tree, stats, false, quiet, false⟩
  let o' : Options := ⟨none, some (.name name), tree, stats, false, quiet, false⟩
  have hl : ¬ (o.configure l).level ≤ .debug := Options.not_debug_configure l rfl
  have hformula : (Source.text text).formula files = (Formula.parse text).mapError .read :=
    Source.Yields.text.formula_eq
  rw [run_of_ofArguments files l h, run_of_ofArguments files l h']
  refine ⟨?_, ?_, ?_⟩
  · have hrun : (o'.run files).run (o.configure l) = (o.run files).run (o.configure l) :=
      Options.run_congr hl rfl rfl rfl (Source.formula_file hfile hread) rfl
    exact congrArg (fun p => (p.1, p.2, o.configure l)) hrun
  · rintro ⟨f, hf⟩
    rw [hf] at hformula
    exact congrArg Prod.fst (Options.run_of_ok (o := o) rfl rfl hl hformula)
  · rintro ⟨symbol, hs⟩
    rw [hs] at hformula
    exact congrArg Prod.fst (Options.run_of_error (o := o) rfl rfl hl hformula)

theorem run_file_eq_run_text_crlf :
    let files : FileSystem := fun _ => .ok (encode "\tx\r\n".toList)
    Formula.parse "\tx\r\n" = .ok (.atom "x") ∧
      run files ["-f", "spec", "--stats"] .initial = run files ["--stats", "\tx\r\n"] .initial := by
  intro files
  have hx : IsAtomName "x" := .inl ⟨'x', [], rfl, by decide, nofun⟩
  have hgap (g : List Char) (h : g.all Token.isIgnored) : Token.IsGap g := List.all_eq_true.mp h
  have hwritten : Formula.Written (.atom "x") (['\t'] ++ "x".toList ++ ['\r', '\n']) :=
    .atom (hgap _ (by decide)) hx (hgap _ (by decide))
  have hread : Formula.parse "\tx\r\n" = .ok (.atom "x") :=
    Formula.parse_eq_ok_iff.mpr hwritten
  refine ⟨hread, ?_⟩
  exact (run_file_eq_run_text files .initial (by rfl) (by rfl) rfl (.inl ⟨_, hread⟩)).1

end CommandLine

end Formulary
