import Formulary.Proofs.Draft
import Formulary.Proofs.Progress

/-!
# Steps of the reader

What one token and the end of the text do to the reader: an accepted token is one of five moves
(`Reader.State.Moves`), and a token is refused either because no phrase goes on with it or because
the binary group that has just been closed has an unknown operator (`Reader.State.step_eq_error`).
-/

namespace Formulary.Reader
open Token
open Operator (IsSymbol)

namespace Operand

/-- The operator of a binary group that waits to be settled. -/
def symbol? : Operand → Option String
  | whole _ => none
  | joined _ s _ => some s

theorem settle_eq_error_iff {operand : Operand} {e : ReadError} : operand.settle = .error e ↔
    ∃ s, operand.symbol? = some s ∧ ¬ IsSymbol s ∧ e = .unknownOperator s := by
  cases operand with
  | whole f => simp [settle, symbol?]
  | joined left s right => simp [settle_joined_eq_error_iff, symbol?]

end Operand

/-- The operator of a group, if it is known. -/
def Frame.symbol? : Frame → Option String
  | opened => none
  | joining _ s => some s

namespace State

/-- The operator of the binary group that has just been closed. -/
def closed? : State → Option String
  | wanting _ => none
  | holding operand _ => operand.symbol?

def progress : State → Progress
  | wanting frames => ⟨false, frames.map Frame.symbol?⟩
  | holding _ frames => ⟨true, frames.map Frame.symbol?⟩

theorem step_leftParen (ht : t.kind = .leftParen) :
    (wanting frames).step t = .ok (wanting (.opened :: frames)) := by
  rw [step, ht]

theorem step_operator_opened (ht : t.kind = .operator) :
    (holding operand (.opened :: frames)).step t =
      operand.settle >>= fun f => .ok (wanting (.joining f t.text :: frames)) := by
  rw [step, ht]

theorem step_rightParen_opened (ht : t.kind = .rightParen) :
    (holding operand (.opened :: frames)).step t =
      operand.settle >>= fun f => .ok (holding (.whole f) frames) := by
  rw [step, ht]

theorem step_rightParen_joining (ht : t.kind = .rightParen) :
    (holding operand (.joining left s :: frames)).step t =
      operand.settle >>= fun f => .ok (holding (.joined left s f) frames) := by
  rw [step, ht]

/-- What an accepted token does. -/
inductive Moves : State → Token → State → Prop
  | opens : t.kind = .leftParen → Moves (wanting frames) t (wanting (.opened :: frames))
  | operand : t.kind = .identifier ∨ t.kind = .number →
    Moves (wanting frames) t (holding (.whole (.atom t.text)) frames)
  | joins : t.kind = .operator → operand.settle = .ok f →
    Moves (holding operand (.opened :: frames)) t (wanting (.joining f t.text :: frames))
  | groups : t.kind = .rightParen → operand.settle = .ok f →
    Moves (holding operand (.opened :: frames)) t (holding (.whole f) frames)
  | closes : t.kind = .rightParen → operand.settle = .ok f →
    Moves (holding operand (.joining left s :: frames)) t (holding (.joined left s f) frames)

theorem step_eq_ok_iff {σ σ' : State} : σ.step t = .ok σ' ↔ σ.Moves t σ' := by
  constructor
  · intro h
    cases σ with
    | wanting frames =>
      rw [step] at h
      split at h <;> cases h
      · exact .opens ‹_›
      · exact .operand (.inl ‹_›)
      · exact .operand (.inr ‹_›)
    | holding operand frames =>
      rw [step] at h
      split at h
      · cases h
      · cases h
      · cases h
      · obtain ⟨f, hf, h⟩ := bind_eq_ok_iff.mp h
        split at h <;> cases h
        exact .joins ‹_› hf
      · obtain ⟨f, hf, h⟩ := bind_eq_ok_iff.mp h
        split at h <;> cases h
        · exact .groups ‹_› hf
        · exact .closes ‹_› hf
  · intro H
    cases H with
    | opens ht => exact step_leftParen ht
    | operand ht => rcases ht with ht | ht <;> rw [step, ht]
    | joins ht hf => rw [step_operator_opened ht, hf, ok_bind]
    | groups ht hf => rw [step_rightParen_opened ht, hf, ok_bind]
    | closes ht hf => rw [step_rightParen_joining ht, hf, ok_bind]

namespace Moves
variable {σ σ' : State}

theorem progress (H : Moves σ t σ') : σ.progress.next? t = some σ'.progress := by
  cases H with
  | opens ht => simp [State.progress, Progress.next?, ht, Frame.symbol?]
  | operand ht => rcases ht with ht | ht <;> simp [State.progress, Progress.next?, ht]
  | joins ht | groups ht | closes ht =>
    simp [State.progress, Progress.next?, ht, Frame.symbol?]

/-- A binary group is left behind only with a known operator. -/
theorem isSymbol (H : Moves σ t σ') (hs : σ.closed? = some s) : IsSymbol s := by
  refine Decidable.not_not.mp fun hn => ?_
  cases H with
  | opens | operand => cases hs
  | joins _ hf | groups _ hf | closes _ hf =>
    have := Operand.settle_eq_error_iff.mpr ⟨s, hs, hn, rfl⟩
    rw [hf] at this
    cases this

theorem closed?_eq_some_iff (H : Moves σ t σ') :
    σ'.closed? = some s ↔ t.kind = .rightParen ∧ σ.progress.groups.head? = some (some s) := by
  cases H with
  | opens ht | joins ht => simp [closed?, ht]
  | operand ht => rcases ht with ht | ht <;> simp [closed?, Operand.symbol?, ht]
  | groups ht => simp [closed?, Operand.symbol?, State.progress, Frame.symbol?]
  | closes ht => simp [closed?, Operand.symbol?, State.progress, Frame.symbol?, ht]

end Moves

/-- A token is refused because no phrase goes on with it, or because an operand before it cannot be
settled. -/
theorem step_eq_error {σ : State} (h : σ.step t = .error e) :
    (e = .unexpected t ∧ σ.progress.next? t = none) ∨
      ∃ s, σ.closed? = some s ∧ ¬ IsSymbol s ∧ e = .unknownOperator s ∧
        (t.kind = .operator ∨ t.kind = .rightParen) := by
  cases σ with
  | wanting frames =>
    rw [step] at h
    split at h <;> cases h <;> exact .inl ⟨rfl, by simp [State.progress, Progress.next?, *]⟩
  | holding operand frames =>
    rw [step] at h
    split at h
    · cases h; exact .inl ⟨rfl, by simp [State.progress, Progress.next?, *]⟩
    · cases h; exact .inl ⟨rfl, by simp [State.progress, Progress.next?, *]⟩
    · cases h; exact .inl ⟨rfl, by simp [State.progress, Progress.next?, *]⟩
    -- an operator or a right parenthesis: the operand is settled before the group is looked at
    · obtain hf | ⟨f, hf, h⟩ := bind_eq_error_iff.mp h
      · obtain ⟨s, hs, hn, rfl⟩ := Operand.settle_eq_error_iff.mp hf
        exact .inr ⟨s, hs, hn, rfl, .inl ‹_›⟩
      · split at h <;> cases h
        rename_i ht _ hne
        refine .inl ⟨rfl, ?_⟩
        obtain _ | ⟨_ | ⟨left, s⟩, frames⟩ := frames
        · simp [State.progress, Progress.next?, ht]
        · exact (hne _ rfl).elim
        · simp [State.progress, Progress.next?, ht, Frame.symbol?]
    · obtain hf | ⟨f, hf, h⟩ := bind_eq_error_iff.mp h
      · obtain ⟨s, hs, hn, rfl⟩ := Operand.settle_eq_error_iff.mp hf
        exact .inr ⟨s, hs, hn, rfl, .inr ‹_›⟩
      · split at h <;> cases h
        exact .inl ⟨rfl, by simp [State.progress, Progress.next?, *]⟩

/-- A binary group with an unknown operator is reported at a token that may follow an operand. -/
theorem step_of_closed {σ : State} (hs : σ.closed? = some s) (hn : ¬ IsSymbol s)
    (ht : t.kind = .operator ∨ t.kind = .rightParen) :
    σ.step t = .error (.unknownOperator s) := by
  cases σ with
  | wanting frames => cases hs
  | holding operand frames =>
    have hf := Operand.settle_eq_error_iff.mpr ⟨s, hs, hn, rfl⟩
    rcases ht with ht | ht <;> simp [step, ht, hf]

/-! ### The end -/

theorem finish_eq_ok_iff {σ : State} :
    σ.finish = .ok f ↔ ∃ operand, σ = holding operand [] ∧ operand.settle = .ok f := by
  cases σ with
  | wanting frames => simp [finish]
  | holding operand frames =>
    cases frames with
    | nil => simp [finish, bind_eq_ok_iff]
    | cons frame frames => simp [finish, bind_eq_ok_iff]

theorem finish_of_closed {σ : State} (hs : σ.closed? = some s) (hn : ¬ IsSymbol s) :
    σ.finish = .error (.unknownOperator s) := by
  cases σ with
  | wanting frames => cases hs
  | holding operand frames =>
    rw [finish, Operand.settle_eq_error_iff.mpr ⟨s, hs, hn, rfl⟩, error_bind]

/-- The end comes too early, or the operand before it cannot be settled. -/
theorem finish_eq_error {σ : State} (h : σ.finish = .error e) :
    (e = .unexpectedEnd ∧ σ.progress ≠ ⟨true, []⟩) ∨
      ∃ s, σ.closed? = some s ∧ ¬ IsSymbol s ∧ e = .unknownOperator s := by
  cases σ with
  | wanting frames => cases h; exact .inl ⟨rfl, by simp [State.progress]⟩
  | holding operand frames =>
    obtain hf | ⟨f, hf, h⟩ := bind_eq_error_iff.mp h
    · exact .inr (Operand.settle_eq_error_iff.mp hf)
    · split at h <;> cases h
      exact .inl ⟨rfl, by simp [State.progress]⟩

end State
end Formulary.Reader
