import Formulary.Proofs.Steps

/-!
# Runs of the reader

The states that tokens lead to (`Reader.Reaches`) remember these tokens: the open frames and the
operand are drafts of the tokens read (`Reader.Reaches.reads`), which therefore begin a phrase
(`Reader.Reaches.viable`). Conversely the tokens of a draft take the reader over its operand, or
stop it where the draft cannot be settled (`Reader.foldlM_of_spelled`). So the reader accepts the
tokens of a formula and no others (`Reader.run_eq_ok_iff`).
-/

namespace Formulary.Reader
open Token
open Operator (IsSymbol)

/-! ### States that tokens lead to -/

inductive Reaches : List Token → State → Prop
  | initial : Reaches [] .initial
  | step : Reaches ts σ → σ.Moves t σ' → Reaches (ts ++ [t]) σ'

theorem Reaches.foldlM {σ σ' : State} (H : Reaches us σ) (h : ts.foldlM State.step σ = .ok σ') :
    Reaches (us ++ ts) σ' := by
  induction ts generalizing us σ with
  | nil => cases h; simpa
  | cons t ts ih =>
    obtain ⟨τ, ht, h⟩ := bind_eq_ok_iff.mp h
    simpa using ih (H.step (State.step_eq_ok_iff.mp ht)) h

theorem foldlM_eq_ok_iff {ts : List Token} {σ : State} :
    ts.foldlM State.step .initial = .ok σ ↔ Reaches ts σ := by
  refine ⟨fun h => Reaches.initial.foldlM h, fun H => ?_⟩
  induction H with
  | initial => rfl
  | step _ hm ih =>
    rw [List.foldlM_append, ih, ok_bind, List.foldlM_cons, State.step_eq_ok_iff.mpr hm]
    rfl

theorem Reaches.foldlM_eq_error {σ : State} (H : Reaches us σ)
    (h : ts.foldlM State.step σ = .error e) :
    ∃ vs t ws τ, ts = vs ++ t :: ws ∧ Reaches (us ++ vs) τ ∧ τ.step t = .error e := by
  induction ts generalizing us σ with
  | nil => cases h
  | cons t ts ih =>
    obtain ht | ⟨τ, ht, h⟩ := bind_eq_error_iff.mp h
    · exact ⟨[], t, ts, σ, rfl, by simpa, ht⟩
    · obtain ⟨vs, t', ws, τ', rfl, H', ht'⟩ := ih (H.step (State.step_eq_ok_iff.mp ht)) h
      exact ⟨t :: vs, t', ws, τ', rfl, by simpa using H', ht'⟩

/-- The run over some tokens fails at the first one that is refused. -/
theorem foldlM_eq_error_iff {ts : List Token} {e : ReadError} :
    ts.foldlM State.step .initial = .error e ↔
      ∃ us t vs σ, ts = us ++ t :: vs ∧ Reaches us σ ∧ σ.step t = .error e := by
  constructor
  · intro h
    simpa using Reaches.initial.foldlM_eq_error h
  · rintro ⟨us, t, vs, σ, rfl, H, ht⟩
    rw [List.foldlM_append, foldlM_eq_ok_iff.mpr H, ok_bind, List.foldlM_cons, ht, error_bind]

namespace Reaches
variable {σ : State}

theorem progress (H : Reaches ts σ) : Progress.of? ts = some σ.progress := by
  induction H with
  | initial => rfl
  | step _ hm ih =>
    rw [Progress.of?_append, ih, Option.bind_some, List.foldlM_cons, hm.progress]
    rfl

theorem groups (H : Reaches ts σ) : σ.progress.groups = openGroups ts :=
  Progress.groups_of? H.progress

theorem of_append (H : Reaches (ts ++ us) σ) :
    ∃ τ, Reaches ts τ ∧ us.foldlM State.step τ = .ok σ := by
  have h := foldlM_eq_ok_iff.mpr H
  rw [List.foldlM_append] at h
  obtain ⟨τ, hτ, h⟩ := bind_eq_ok_iff.mp h
  exact ⟨τ, foldlM_eq_ok_iff.mp hτ, h⟩

/-- The moves before `t`, the one over `t` and those over `us`. -/
theorem of_append_cons (H : Reaches (ts ++ t :: us) σ) :
    ∃ τ τ', Reaches ts τ ∧ τ.Moves t τ' ∧ us.foldlM State.step τ' = .ok σ := by
  obtain ⟨τ, H', h⟩ := H.of_append
  obtain ⟨τ', ht, h⟩ := bind_eq_ok_iff.mp h
  exact ⟨τ, τ', H', State.step_eq_ok_iff.mp ht, h⟩

/-- The state knows whether the last token has closed a binary group, and of which operator. -/
theorem closed?_eq_some_iff (H : Reaches (ts ++ [t]) σ) :
    σ.closed? = some s ↔ Closes ts t s := by
  obtain ⟨τ, τ', H', hm, h⟩ := H.of_append_cons
  cases h
  rw [hm.closed?_eq_some_iff, H'.groups, Closes]

/-- A binary group is known unless its end is the last token. -/
theorem isSymbol_of_closes (H : Reaches (ts ++ r :: t :: us) σ) (hr : Closes ts r s) :
    IsSymbol s := by
  rw [List.append_cons] at H
  obtain ⟨τ, τ', H', hm, _⟩ := H.of_append_cons
  exact hm.isSymbol (H'.closed?_eq_some_iff.mpr hr)

end Reaches

/-! ### What has been read -/

/-- Tokens that open these groups and leave them open. -/
inductive Opens : List Frame → List Token → Prop
  | nil : Opens [] []
  | opened : Opens frames ts → l.kind = .leftParen → Opens (.opened :: frames) (ts ++ [l])
  | joining : Opens frames ts → l.kind = .leftParen → left.draft.Spelled us →
    o.kind = .operator → Opens (.joining left o.text :: frames) (ts ++ (l :: us ++ [o]))

/-- The state says all that matters about these tokens. -/
inductive State.Reads : State → List Token → Prop
  | wanting : Opens frames ts → Reads (wanting frames) ts
  | holding : Opens frames ts → operand.draft.Spelled us → Reads (holding operand frames) (ts ++ us)

theorem Operand.draft_of_settle {operand : Operand} (h : operand.settle = .ok f) :
    operand.draft = f.draft := by
  rw [settle_eq, Draft.settle_eq_ok_iff] at h
  exact h.symm

theorem State.Reads.step {σ σ' : State} (H : σ.Reads ts) (hm : σ.Moves t σ') :
    σ'.Reads (ts ++ [t]) := by
  cases hm with
  | opens ht =>
    cases H with | wanting H => exact .wanting (H.opened ht)
  | operand ht =>
    cases H with | wanting H => exact .holding H (.atom ht)
  | joins ht hf =>
    cases H with | holding H hd =>
    rw [Operand.draft_of_settle hf] at hd
    cases H with | opened H hl =>
    have := H.joining hl hd ht
    exact .wanting (by simpa using this)
  | groups ht hf =>
    cases H with | holding H hd =>
    rw [Operand.draft_of_settle hf] at hd
    cases H with | opened H hl =>
    have : (State.holding (.whole _) _).Reads (_ ++ _) := .holding H (.group hl hd ht)
    simpa using this
  | closes ht hf =>
    cases H with | holding H hd =>
    rw [Operand.draft_of_settle hf] at hd
    cases H with | joining H hl hd' ho =>
    have : (State.holding (.joined _ _ _) _).Reads (_ ++ _) :=
      .holding H (.joined hl hd' ho hd ht)
    simpa using this

theorem State.Reads.spelled {operand : Operand} (H : (State.holding operand []).Reads ts) :
    operand.draft.Spelled ts := by
  cases H with
  | holding ho hd => cases ho with | nil => exact hd

theorem Reaches.reads {σ : State} (H : Reaches ts σ) : σ.Reads ts := by
  induction H with
  | initial => exact .wanting .nil
  | step _ hm ih => exact ih.step hm

/-- Every open group can be closed. -/
theorem Opens.viable (H : Opens frames ts) (hp : Phrase us) : Viable (ts ++ us) := by
  -- the phrase grows from the innermost group outwards, so it is generalized over
  have close : (⟨.rightParen, ")", 0⟩ : Token).kind = .rightParen := rfl
  induction H generalizing us with
  | nil => exact hp.viable
  | opened _ hl ih =>
    have := ih (.group hl hp close)
    exact Viable.of_append (by simpa using this)
  | joining _ hl hd ho ih =>
    have := ih (.binary hl (phrase_iff.mpr ⟨_, hd⟩) ho hp close)
    exact Viable.of_append (by simpa using this)

/-- The tokens read begin a phrase. -/
theorem Reaches.viable {σ : State} (H : Reaches ts σ) : Viable ts := by
  cases H.reads with
  | wanting ho => exact (ho.viable (.atom (t := ⟨.identifier, "x", 0⟩) (.inl rfl))).of_append
  | holding ho hd => exact ho.viable (phrase_iff.mpr ⟨_, hd⟩)

/-! ### Runs over drafts -/

/-- The tokens of a draft leave its operand waiting, unless they are refused because some operand
inside it cannot be settled. -/
theorem foldlM_of_spelled {d : Draft} (H : d.Spelled ts) :
    ∃ x : Except ReadError Operand, (x >>= Operand.settle) = d.settle ∧
      ∀ frames, ts.foldlM State.step (.wanting frames) = x >>= fun o => .ok (.holding o frames) := by
  -- `x` cannot be `d.settle` itself: a joined operand is settled by the token after it
  induction H with
  | @atom t ht =>
    refine ⟨.ok (.whole (.atom t.text)), rfl, fun frames => ?_⟩
    rcases ht with ht | ht <;> simp [State.step, ht]
  | @group d ts l r hl _ hr ih =>
    obtain ⟨x, hx, h⟩ := ih
    refine ⟨d.settle >>= fun f => .ok (.whole f), ?_, fun frames => ?_⟩
    · cases d.settle <;> rfl
    rw [List.cons_append, List.foldlM_cons, State.step_leftParen hl, ok_bind, List.foldlM_append,
      h, ← hx]
    cases x with
    | error e => rfl
    | ok operand =>
      simp only [ok_bind, List.foldlM_cons, State.step_rightParen_opened hr]
      cases operand.settle <;> rfl
  | @joined left ts right us l o r hl _ ho _ hr ihl ihr =>
    obtain ⟨x, hx, h⟩ := ihl
    obtain ⟨y, hy, h'⟩ := ihr
    refine ⟨left.settle >>= fun f => right.settle >>= fun g => .ok (.joined f o.text g), ?_,
      fun frames => ?_⟩
    · rw [Draft.settle]
      cases left.settle with
      | error e => rfl
      | ok f => cases right.settle <;> rfl
    rw [List.append_assoc, List.cons_append, List.foldlM_cons, State.step_leftParen hl, ok_bind,
      List.foldlM_append, h, ← hx]
    cases x with
    | error e => rfl
    | ok a =>
      simp only [ok_bind, List.cons_append, List.foldlM_cons, State.step_operator_opened ho]
      cases a.settle with
      | error e => rfl
      | ok f =>
        simp only [ok_bind, List.foldlM_append, h', ← hy]
        cases y with
        | error e => rfl
        | ok b =>
          simp only [ok_bind, List.foldlM_cons, State.step_rightParen_joining hr]
          cases b.settle <;> rfl

/-! ### Outcomes -/

/-- A draft whose tokens make up the whole text decides what is read. -/
theorem run_of_spelled {d : Draft} {L : Lexing} (H : d.Spelled L.tokens)
    (hL : L.foreign? = none) : run L = d.settle := by
  obtain ⟨x, hx, h⟩ := foldlM_of_spelled H
  rw [run, State.initial, h, hL, ← hx]
  cases x with
  | error e => rfl
  | ok operand =>
    simp only [ok_bind, State.finish]
    cases operand.settle <;> rfl

theorem run_eq_ok_iff {L : Lexing} {f : Formula} :
    run L = .ok f ↔ L.foreign? = none ∧ f.draft.Spelled L.tokens := by
  constructor
  · intro h
    obtain ⟨σ, hσ, h⟩ := bind_eq_ok_iff.mp h
    cases hL : L.foreign? with
    | some c => rw [hL] at h; cases h
    | none =>
      rw [hL] at h
      obtain ⟨operand, rfl, hf⟩ := State.finish_eq_ok_iff.mp h
      rw [← Operand.draft_of_settle hf]
      exact ⟨rfl, (foldlM_eq_ok_iff.mp hσ).reads.spelled⟩
  · rintro ⟨hL, H⟩
    rw [run_of_spelled H hL, Draft.settle_draft]

/-- A run fails at a token, at a foreign character after the last token, or at the end. -/
theorem run_eq_error_iff {L : Lexing} {e : ReadError} : run L = .error e ↔
    (∃ us t vs σ, L.tokens = us ++ t :: vs ∧ Reaches us σ ∧ σ.step t = .error e) ∨
      ∃ σ, Reaches L.tokens σ ∧
        ((∃ c, L.foreign? = some c ∧ e = .foreign c) ∨
          L.foreign? = none ∧ σ.finish = .error e) := by
  rw [run, bind_eq_error_iff, foldlM_eq_error_iff]
  refine or_congr_right (exists_congr fun σ => ?_)
  rw [foldlM_eq_ok_iff]
  refine and_congr_right fun _ => ?_
  cases L.foreign? with
  | none => simp
  | some c => simp [eq_comm]

end Formulary.Reader
