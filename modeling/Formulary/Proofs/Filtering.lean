import Formulary.Session

/-!
# Levels only filter

The value of a computation that logs does not depend on the level of the logger, and the records
written at a level are those of a debugging run that are severe enough (`Logged.Filtered`). Steps
that do so do so one after the other (`Logged.Filtered.bind`), and a record that is built only if
it is written has to be no more severe than the level asked about (`Logged.Filtered.whenEnabled`).
-/

namespace Formulary

theorem Logger.emit_setLevel (l : Logger) (s : Severity) (r : Record) :
    (l.setLevel s).emit r = if s ≤ r.severity then l.handlers.map fun _ => r else [] := by
  have henabled : (l.setLevel s).enabled r.severity = decide (s ≤ r.severity) := rfl
  rw [emit, henabled]
  by_cases h : s ≤ r.severity
  · have hall : (l.setLevel s).handlers.filter (fun h => h.level ≤ r.severity) =
        (l.setLevel s).handlers := List.filter_eq_self.mpr (by simp [setLevel, h])
    rw [hall, decide_eq_true h, if_pos rfl, if_pos h, setLevel, List.map_map]
    rfl
  · rw [decide_eq_false h, if_neg Bool.false_ne_true, if_neg h]

namespace Logged

/-- The level of the logger decides which records are written, and nothing else. -/
structure Filtered (x : Logged α) : Prop where
  value : ∀ (l : Logger) (s : Severity), x.value (l.setLevel s) = x.value (l.setLevel .debug)
  records : ∀ (l : Logger) (s : Severity), x.records (l.setLevel s) =
    (x.records (l.setLevel .debug)).filter fun r => s ≤ r.severity

namespace Filtered

theorem pure (a : α) : Filtered (pure a : Logged α) := ⟨fun _ _ => rfl, fun _ _ => rfl⟩

theorem bind {x : Logged α} {f : α → Logged β} (H : Filtered x) (Hf : ∀ a, Filtered (f a)) :
    Filtered (x >>= f) where
  value l s := by rw [value_bind, value_bind, H.value, (Hf _).value]
  records l s := by
    rw [records_bind, records_bind, H.value, H.records, (Hf _).records, List.filter_append]

theorem log (severity : Severity) (message : String) : Filtered (log severity message) where
  value _ _ := rfl
  records l s := by
    have h (s) : (Logged.log severity message).records (l.setLevel s) =
        if s ≤ severity then l.handlers.map fun _ => ⟨severity, message⟩ else [] :=
      l.emit_setLevel s ⟨severity, message⟩
    rw [h, h, if_pos (Severity.debug_le _)]
    split <;> rename_i hs <;> symm
    · exact List.filter_eq_self.mpr (by simp [hs])
    · exact List.filter_eq_nil_iff.mpr (by simp [hs])

/-- What is left out below a level would not have been written above it. -/
theorem whenEnabled {x : Logged Unit} (H : Filtered x)
    (hx : ∀ l, ∀ r ∈ x.records l, r.severity ≤ severity) :
    Filtered (whenEnabled severity x) := by
  refine ⟨fun l s => rfl, fun l s => ?_⟩
  have henabled (s) : (l.setLevel s).enabled severity = decide (s ≤ severity) := rfl
  rw [records_whenEnabled, records_whenEnabled, henabled, henabled,
    decide_eq_true (Severity.debug_le _), if_pos rfl]
  by_cases hs : s ≤ severity
  · rw [decide_eq_true hs, if_pos rfl, H.records]
  · rw [decide_eq_false hs, if_neg Bool.false_ne_true]
    symm
    refine List.filter_eq_nil_iff.mpr fun r hr h => hs ?_
    exact Severity.le_trans (of_decide_eq_true h) (hx _ r hr)

theorem whenEnabled_log (severity : Severity) (message : String) :
    Filtered (Logged.whenEnabled severity (Logged.log severity message)) := by
  refine whenEnabled (log severity message) fun l r hr => ?_
  have hr : r ∈ l.emit ⟨severity, message⟩ := hr
  unfold Logger.emit at hr
  split at hr
  · obtain ⟨_, -, rfl⟩ := List.mem_map.mp hr
    exact Severity.le_refl severity
  · cases hr

theorem ite {c : Prop} [Decidable c] {x y : Logged α} (hx : Filtered x) (hy : Filtered y) :
    Filtered (if c then x else y) := by
  split
  · exact hx
  · exact hy

theorem forM {f : α → Logged PUnit} (Hf : ∀ a, Filtered (f a)) (as : List α) :
    Filtered (as.forM f) := by
  induction as with
  | nil => exact pure _
  | cons a as ih => exact (Hf a).bind fun _ => ih

end Filtered

/-! ### Reading and analysing -/

theorem filtered_readFailure (e : ReadError) : Filtered (readFailure e) := by
  cases e with
  | unexpected | unexpectedEnd => exact .pure ()
  | foreign c => exact (Filtered.log ..).bind fun _ => .log ..
  | unknownOperator symbol => exact .log ..

/-- A result that is logged as it is returned. -/
theorem Filtered.analysisResult (analysis : String) (f : Formula) (shown : String) (a : α) :
    Filtered (do
      analysisResult analysis f shown
      return a) :=
  (whenEnabled_log ..).bind fun _ => pure a

end Logged
open Logged

theorem Operator.filtered_find (symbol : String) : Filtered (find symbol) := by
  unfold find
  split
  · exact .pure _
  · exact (Filtered.log ..).bind fun _ => .pure _

theorem Lexing.filtered_scan (text : String) : Filtered (scan text) := by
  dsimp only [scan]
  split
  · exact (Filtered.log ..).bind fun _ => .pure _
  · exact .pure _

namespace Formula

theorem filtered_readQuietly (text : String) : Filtered (readQuietly text) := by
  unfold readQuietly
  split
  · exact .pure _
  · exact (filtered_readFailure _).bind fun _ => .pure _

theorem filtered_read (text : String) : Filtered (read text) := by
  refine (Filtered.log ..).bind fun _ => (filtered_readQuietly text).bind fun result => ?_
  cases result with
  | ok f => exact (Filtered.whenEnabled_log ..).bind fun _ => .pure _
  | error e => exact .pure _

theorem filtered_collectAtoms (f : Formula) : Filtered f.collectAtoms := .analysisResult ..

theorem filtered_countOperators (f : Formula) : Filtered f.countOperators := .analysisResult ..

theorem filtered_measureDepth (f : Formula) : Filtered f.measureDepth := .analysisResult ..

end Formula

theorem Node.filtered_substitute (m : List (String × Node)) (next : Nat) (root : Node) :
    Filtered (substitute m next root) := .analysisResult ..

/-! ### Queries -/

namespace Session

/-- The same of computations that may fail and build nodes. -/
def Build.Filtered (x : Build α) : Prop := ∀ next, Logged.Filtered ((x.run).run next)

namespace Build.Filtered

theorem pure (a : α) : Filtered (pure a : Build α) := fun _ => .pure _

theorem throw (e : Failure) : Filtered (throw e : Build α) := fun _ => .pure _

theorem bind {x : Build α} {f : α → Build β} (H : Filtered x) (Hf : ∀ a, Filtered (f a)) :
    Filtered (x >>= f) := by
  intro next
  have hrun : ((x >>= f).run).run next =
      (x.run).run next >>= fun p => (ExceptT.bindCont f p.1).run p.2 := rfl
  rw [hrun]
  refine (H next).bind fun p => ?_
  obtain ⟨result, next⟩ := p
  cases result with
  | ok a => exact Hf a next
  | error e => exact .pure _

theorem logged {x : Logged α} (H : Logged.Filtered x) : Filtered (logged x) := by
  intro next
  have hrun : ((Build.logged x).run).run next =
      (x >>= fun a => Pure.pure (a, next)) >>= fun p => Pure.pure (.ok p.1, p.2) := rfl
  rw [hrun]
  exact (H.bind fun _ => .pure _).bind fun _ => .pure _

theorem modifyGet (f : Nat → α × Nat) : Filtered (modifyGet f : Build α) := fun _ => .pure _

theorem mapM {f : α → Build β} (Hf : ∀ a, Filtered (f a)) (as : List α) :
    Filtered (as.mapM f) := by
  induction as with
  | nil => exact pure _
  | cons a as ih =>
    rw [List.mapM_cons]
    exact (Hf a).bind fun _ => ih.bind fun _ => pure _

end Build.Filtered

theorem Build.filtered_read (text : String) : Filtered (Build.read text) := by
  refine (Filtered.logged (Formula.filtered_read text)).bind fun result => ?_
  cases result with
  | ok f => exact .modifyGet _
  | error e => exact .throw _

theorem Build.filtered_node (registry : Array Node) (b : Blueprint) :
    Filtered (node registry b) := by
  induction b with
  | atom name => exact .modifyGet _
  | binary left op right ihl ihr => exact ihl.bind fun _ => ihr.bind fun _ => .modifyGet _
  | text s => exact filtered_read s
  | registered index =>
    unfold node
    split
    · exact .pure _
    · exact .throw _

theorem Build.filtered_mapping (registry : Array Node) (m : List (String × Blueprint)) :
    Filtered (mapping registry m) :=
  .mapM (fun (_, b) => (filtered_node registry b).bind fun _ => .pure _) m

open Build in
theorem Query.filtered_run (registry : Array Node) (q : Query) : (q.run registry).Filtered := by
  have hnode := filtered_node registry
  cases q with
  | vocabulary | describeOperator op => exact .pure _
  | findOperator symbol =>
    refine (Filtered.logged (Operator.filtered_find symbol)).bind fun op? => ?_
    cases op? with
    | some op => exact .pure _
    | none => exact .throw _
  | scan text => exact (Filtered.logged (Lexing.filtered_scan text)).bind fun _ => .pure _
  | read text => exact (filtered_read text).bind fun _ => .pure _
  | readAll texts =>
    exact (Filtered.mapM (fun _ => .logged (Formula.filtered_readQuietly _)) texts).bind
      fun _ => .pure _
  | build b | parts b | outline b => exact (hnode b).bind fun _ => .pure _
  | atoms b =>
    exact (hnode b).bind fun _ => (Filtered.logged (Formula.filtered_collectAtoms _)).bind
      fun _ => .pure _
  | counts b =>
    exact (hnode b).bind fun _ => (Filtered.logged (Formula.filtered_countOperators _)).bind
      fun _ => .pure _
  | depth b =>
    exact (hnode b).bind fun _ => (Filtered.logged (Formula.filtered_measureDepth _)).bind
      fun _ => .pure _
  | analyze b =>
    refine (hnode b).bind fun _ => ?_
    refine (Filtered.logged (Formula.filtered_collectAtoms _)).bind fun _ => ?_
    refine (Filtered.logged (Formula.filtered_countOperators _)).bind fun _ => ?_
    exact (Filtered.logged (Formula.filtered_measureDepth _)).bind fun _ => .pure _
  | substitute b m =>
    refine (hnode b).bind fun n => (filtered_mapping registry m).bind fun m => ?_
    refine Filtered.bind (.modifyGet fun next => (next, next)) fun next => ?_
    refine (Filtered.logged (Node.filtered_substitute m next n)).bind fun result => ?_
    exact Filtered.bind (.modifyGet fun _ => ((), result.2)) fun _ => .pure _
  | reuse bs m =>
    refine (filtered_mapping registry m).bind fun m => (Filtered.mapM hnode bs).bind fun ns => ?_
    exact Filtered.bind (.modifyGet fun next => (next, next)) fun next => .pure _
  | visit v subject =>
    cases subject with
    | inl a => exact .throw _
    | inr b => exact (hnode b).bind fun _ => .pure _
  | compare a b => exact (hnode a).bind fun _ => (hnode b).bind fun _ => .pure _
  | distinct bs => exact (Filtered.mapM hnode bs).bind fun _ => .pure _
  | log severity message => exact (Filtered.logged (.log ..)).bind fun _ => .pure _
  | logUnknownOperator symbol known => exact (Filtered.logged (.log ..)).bind fun _ => .pure _
  | logFormulaRead text b =>
    exact (hnode b).bind fun _ => (Filtered.logged (.whenEnabled_log ..)).bind fun _ => .pure _
  | logAnalysisResult analysis b finding =>
    have hrecord (shown : String) : Filtered (do
        let n ← node registry b
        Build.logged (Logged.analysisResult analysis n.formula shown)
        return (Answer.done, (none : Option Node))) :=
      (hnode b).bind fun _ => (Filtered.logged (.whenEnabled_log ..)).bind fun _ => .pure _
    cases finding with
    | text s => exact hrecord s
    | formula found => exact (hnode found).bind fun n => hrecord n.formula.render

end Session

end Formulary
