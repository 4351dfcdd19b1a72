import Formulary.Analysis
import Formulary.Proofs.Run

/-!
# Why reading fails

The reader accepts tokens as long as they begin a phrase and the binary groups closed before the
last token have known operators (`Reader.exists_reaches_iff`). From this follow the exact reports:
an unknown operator is reported where the first group with one is closed and the text goes on with
something that may follow an operand, and a syntax error at the first token that no phrase goes on
with, or at an end that comes too early.
-/

namespace Formulary
open Operator (IsSymbol)

namespace Token

/-- All binary groups that end in `ts` have known operators. -/
def ClosesKnown (ts : List Token) : Prop :=
  ∀ us r vs s, ts = us ++ r :: vs → Closes us r s → IsSymbol s

/-- No phrase that begins with `ts` goes on with `t`, though there are some that begin with `ts`. -/
def Impossible (ts : List Token) (t : Token) : Prop := Viable ts ∧ ¬ Viable (ts ++ [t])

/-- These tokens, and then the end or a foreign character, may come after an operand. -/
def MayFollowOperand (ts : List Token) (foreign? : Option ForeignChar) : Prop :=
  (ts = [] ∧ foreign? = none) ∨
    ∃ t us, ts = t :: us ∧ (t.kind = .operator ∨ t.kind = .rightParen)

theorem mem_foldl_nextGroups {ts : List Token} {gs : List (Option String)}
    (h : some s ∈ ts.foldl nextGroups gs) :
    some s ∈ gs ∨ ∃ t ∈ ts, t.kind = .operator ∧ t.text = s := by
  induction ts generalizing gs with
  | nil => exact .inl h
  | cons t ts ih =>
    obtain h | ⟨t', ht', hk⟩ := ih h
    · unfold nextGroups at h
      grind
    · exact .inr ⟨t', List.mem_cons_of_mem _ ht', hk⟩

/-- The operator of a group that is closed is one of the tokens before. -/
theorem Closes.exists_operator (H : Closes ts r s) : ∃ t ∈ ts, t.kind = .operator ∧ t.text = s := by
  obtain h | h := mem_foldl_nextGroups (List.mem_of_head? H.2)
  · cases h
  · exact h

end Token

namespace Reader
open Token
variable {σ : State}

theorem Reaches.impossible (H : Reaches ts σ) (h : σ.progress.next? t = none) :
    Impossible ts t := by
  refine ⟨H.viable, fun hv => ?_⟩
  obtain ⟨p, hp⟩ := hv.progress
  rw [Progress.of?_append, H.progress, Option.bind_some, List.foldlM_cons, h] at hp
  cases hp

/-- All groups that have been closed are known, but for one that has just been closed. -/
theorem Reaches.closesKnown (H : Reaches ts σ) : ClosesKnown ts.dropLast := by
  intro us r vs s h hr
  obtain rfl | ⟨ts, t, ht⟩ := ts.eq_nil_or_concat
  · simp at h
  · rw [List.concat_eq_append] at ht
    subst ht
    rw [List.dropLast_concat] at h
    subst h
    cases vs with
    | nil => exact isSymbol_of_closes (by simpa using H) hr
    | cons v vs => exact isSymbol_of_closes (by simpa using H) hr

/-- A group that has just been closed was closed by the last token. -/
theorem Reaches.exists_closes (H : Reaches ts σ) (hs : σ.closed? = some s) :
    ∃ us r, ts = us ++ [r] ∧ Closes us r s := by
  obtain rfl | ⟨us, r, hr⟩ := ts.eq_nil_or_concat
  · cases foldlM_eq_ok_iff.mpr H
    cases hs
  · rw [List.concat_eq_append] at hr
    subst hr
    exact ⟨us, r, rfl, H.closed?_eq_some_iff.mp hs⟩

theorem exists_reaches_iff {ts : List Token} :
    (∃ σ, Reaches ts σ) ↔ Viable ts ∧ ClosesKnown ts.dropLast := by
  constructor
  · rintro ⟨σ, H⟩
    exact ⟨H.viable, H.closesKnown⟩
  rintro ⟨hv, hk⟩
  -- a refused token would end the beginnings of phrases or follow an unknown group
  cases h : ts.foldlM State.step .initial with
  | ok σ => exact ⟨σ, foldlM_eq_ok_iff.mp h⟩
  | error e =>
    exfalso
    obtain ⟨us, t, vs, σ, rfl, H, ht⟩ := foldlM_eq_error_iff.mp h
    obtain ⟨-, hnext⟩ | ⟨s, hs, hn, -⟩ := State.step_eq_error ht
    · have : Viable (us ++ [t]) := by
        rw [List.append_cons] at hv
        exact hv.of_append
      exact (H.impossible hnext).2 this
    · obtain ⟨us, r, rfl, hr⟩ := H.exists_closes hs
      refine hn (hk us r (t :: vs).dropLast s ?_ hr)
      simp

/-! ### Tokens at which reading fails -/

/-- The tokens before `t` are accepted, and at `t` reading fails. -/
def FailsAt (ts : List Token) (t : Token) (e : ReadError) : Prop :=
  ∃ us vs σ, ts = us ++ t :: vs ∧ us.foldlM State.step .initial = .ok σ ∧ σ.step t = .error e

theorem FailsAt.run_eq {L : Lexing} (H : FailsAt L.tokens t e) : run L = .error e := by
  obtain ⟨us, vs, σ, hts, hσ, ht⟩ := H
  exact run_eq_error_iff.mpr (.inl ⟨us, t, vs, σ, hts, foldlM_eq_ok_iff.mp hσ, ht⟩)

/-- A syntax error is at a token that is refused. -/
theorem failsAt_of_unexpected {L : Lexing} (h : run L = .error (.unexpected t)) :
    FailsAt L.tokens t (.unexpected t) := by
  obtain ⟨us, t', vs, σ, hts, H, ht⟩ | ⟨σ, -, ⟨c, -, h⟩ | ⟨-, h⟩⟩ := run_eq_error_iff.mp h
  · obtain ⟨h, -⟩ | ⟨s, -, -, h, -⟩ := State.step_eq_error ht
    · cases h
      exact ⟨us, vs, σ, hts, foldlM_eq_ok_iff.mpr H, ht⟩
    · cases h
  · cases h
  · obtain ⟨h, -⟩ | ⟨s, -, -, h⟩ := State.finish_eq_error h <;> cases h

theorem FailsAt.impossible (H : FailsAt ts t (.unexpected t)) :
    ∃ us vs, ts = us ++ t :: vs ∧ Impossible us t := by
  obtain ⟨us, vs, σ, hts, hσ, ht⟩ := H
  obtain ⟨-, hnext⟩ | ⟨s, -, -, h, -⟩ := State.step_eq_error ht
  · exact ⟨us, vs, hts, (foldlM_eq_ok_iff.mp hσ).impossible hnext⟩
  · cases h

end Reader

namespace Formula
open Token Reader

/-! ### Unknown operators -/

theorem exists_closes_of_parse {text : String} (h : parse text = .error (.unknownOperator s)) :
    ∃ us r vs, (Lexing.ofText text).tokens = us ++ r :: vs ∧ (∃ σ, Reaches (us ++ [r]) σ) ∧
      Closes us r s ∧ ¬ IsSymbol s ∧ MayFollowOperand vs (Lexing.ofText text).foreign? := by
  obtain ⟨us, t, vs, σ, hts, H, ht⟩ | ⟨σ, H, ⟨c, -, h⟩ | ⟨hL, h⟩⟩ := run_eq_error_iff.mp h
  · obtain ⟨h, -⟩ | ⟨s', hs, hn, hs', ht⟩ := State.step_eq_error ht
    · cases h
    cases hs'
    obtain ⟨us, r, rfl, hr⟩ := H.exists_closes hs
    rw [← List.append_cons] at hts
    exact ⟨us, r, t :: vs, hts, ⟨σ, H⟩, hr, hn, .inr ⟨t, vs, rfl, ht⟩⟩
  · cases h
  · obtain ⟨h, -⟩ | ⟨s', hs, hn, hs'⟩ := State.finish_eq_error h
    · cases h
    cases hs'
    obtain ⟨us, r, hus, hr⟩ := H.exists_closes hs
    exact ⟨us, r, [], hus, ⟨σ, hus ▸ H⟩, hr, hn, .inl ⟨rfl, hL⟩⟩

/-- An unknown operator `s` is reported if and only if the tokens up to some `r` begin a phrase, `r`
closes a binary group with the unknown operator `s`, no token before it closes one with an unknown
operator, and the end of the text, an operator or a right parenthesis follows. In particular the
unknown operator of a phrase that is first in postorder is reported. -/
theorem read_eq_unknownOperator_iff (text s : String) (l : Logger) :
    let L := Lexing.ofText text
    ((read text).value l = .error (.unknownOperator s) ↔
      ∃ us r vs, L.tokens = us ++ r :: vs ∧ Viable (us ++ [r]) ∧ Closes us r s ∧ ¬ IsSymbol s ∧
        ClosesKnown us ∧ MayFollowOperand vs L.foreign?) ∧
    ∀ d : Draft, d.Spelled L.tokens → L.foreign? = none →
      ((read text).value l = .error (.unknownOperator s) ↔ d.unknown? = some s) := by
  intro L
  simp only [value_read]
  refine ⟨⟨fun h => ?_, ?_⟩, fun d hd hL => ?_⟩
  · obtain ⟨us, r, vs, hts, H, hr, hn, hvs⟩ := exists_closes_of_parse h
    have ⟨hv, hk⟩ := exists_reaches_iff.mp H
    rw [List.dropLast_concat] at hk
    exact ⟨us, r, vs, hts, hv, hr, hn, hk, hvs⟩
  · rintro ⟨us, r, vs, hts, hv, hr, hn, hk, hvs⟩
    obtain ⟨σ, H⟩ : ∃ σ, Reaches (us ++ [r]) σ :=
      exists_reaches_iff.mpr ⟨hv, by rwa [List.dropLast_concat]⟩
    have hs := H.closed?_eq_some_iff.mpr hr
    refine run_eq_error_iff.mpr ?_
    obtain ⟨rfl, hL⟩ | ⟨t, ws, rfl, ht⟩ := hvs
    · exact .inr ⟨σ, hts ▸ H, .inr ⟨hL, State.finish_of_closed hs hn⟩⟩
    · rw [List.append_cons] at hts
      exact .inl ⟨us ++ [r], t, ws, σ, hts, H, State.step_of_closed hs hn ht⟩
  · rw [parse, run_of_spelled hd hL, Draft.settle_eq_error_iff]
    simp [eq_comm]

theorem read_eq_unknownOperator_innermost :
    (read "(a && (b || c))").value .initial = .error (.unknownOperator "||") := by
  have hinner : Draft.Spelled (.joined (.atom "b") "||" (.atom "c")) _ :=
    .joined (l := ⟨.leftParen, "(", 6⟩) (o := ⟨.operator, "||", 9⟩) (r := ⟨.rightParen, ")", 13⟩)
      rfl (.atom (t := ⟨.identifier, "b", 7⟩) (.inl rfl)) rfl
      (.atom (t := ⟨.identifier, "c", 12⟩) (.inl rfl)) rfl
  have houter : Draft.Spelled (.joined (.atom "a") "&&" (.joined (.atom "b") "||" (.atom "c"))) _ :=
    .joined (l := ⟨.leftParen, "(", 0⟩) (o := ⟨.operator, "&&", 3⟩) (r := ⟨.rightParen, ")", 14⟩)
      rfl (.atom (t := ⟨.identifier, "a", 1⟩) (.inl rfl)) rfl hinner rfl
  obtain ⟨ts, H, hL⟩ : ∃ ts, Draft.Spelled _ ts ∧ Lexing.ofText "(a && (b || c))" = ⟨ts, none⟩ :=
    ⟨_, houter, by decide +kernel⟩
  have h := (read_eq_unknownOperator_iff "(a && (b || c))" "||" .initial).2 _
    (by rw [hL]; exact H) (by rw [hL])
  exact h.mpr (by decide)

/-! ### Syntax errors -/

/-- The token of a syntax error is the first one that no phrase goes on with. -/
theorem impossible_of_parse {text : String} {t : Token} (h : parse text = .error (.unexpected t)) :
    ∃ us vs, (Lexing.ofText text).tokens = us ++ t :: vs ∧ Impossible us t :=
  (failsAt_of_unexpected h).impossible

/-- The end comes too early only after a proper beginning of a phrase. -/
theorem viable_of_parse {text : String} (h : parse text = .error .unexpectedEnd) :
    (Lexing.ofText text).foreign? = none ∧ Viable (Lexing.ofText text).tokens ∧
      ¬ Phrase (Lexing.ofText text).tokens := by
  obtain ⟨us, t, vs, σ, -, -, ht⟩ | ⟨σ, H, ⟨c, -, h⟩ | ⟨hL, h⟩⟩ := run_eq_error_iff.mp h
  · obtain ⟨h, -⟩ | ⟨s, -, -, h, -⟩ := State.step_eq_error ht <;> cases h
  · cases h
  · obtain ⟨-, hσ⟩ | ⟨s, -, -, h⟩ := State.finish_eq_error h
    · refine ⟨hL, H.viable, fun hp => hσ ?_⟩
      exact Option.some.inj (H.progress.symm.trans (hp.progress []))
    · cases h

/-- A foreign character is reported once all tokens before it have been accepted. -/
theorem foreign_of_parse {text : String} {c : ForeignChar} (h : parse text = .error (.foreign c)) :
    (∃ σ, Reaches (Lexing.ofText text).tokens σ) ∧ (Lexing.ofText text).foreign? = some c := by
  obtain ⟨us, t, vs, σ, -, -, ht⟩ | ⟨σ, H, ⟨c', hc, h⟩ | ⟨-, h⟩⟩ := run_eq_error_iff.mp h
  · obtain ⟨h, -⟩ | ⟨s, -, -, h, -⟩ := State.step_eq_error ht <;> cases h
  · cases h
    exact ⟨⟨σ, H⟩, hc⟩
  · obtain ⟨h, -⟩ | ⟨s, -, -, h⟩ := State.finish_eq_error h <;> cases h

/-- A syntax error is at the first token that no phrase goes on with, and an end that comes too
early ends a proper beginning of a phrase. A text without foreign characters and unknown operators
that is no phrase has the one or the other, as there is such a token or not. -/
theorem syntax_error_at_first_impossible (text : String) (l : Logger) :
    let L := Lexing.ofText text
    (∀ t, (read text).value l = .error (.unexpected t) →
      (ReadError.unexpected t).message = "Syntax error near '" ++ t.text ++ "' (type: " ++
        t.kind.name ++ ") at position " ++ toString t.start ∧
      ∃ us vs, L.tokens = us ++ t :: vs ∧ Impossible us t) ∧
    ((read text).value l = .error .unexpectedEnd →
      ReadError.unexpectedEnd.message = "Syntax error: Unexpected end of formula" ∧
      L.foreign? = none ∧ (∃ us, us ≠ [] ∧ Phrase (L.tokens ++ us)) ∧ ¬ Phrase L.tokens) ∧
    (L.foreign? = none → (∀ t ∈ L.tokens, t.kind = .operator → IsSymbol t.text) →
      ¬ Phrase L.tokens →
      ((read text).value l = .error .unexpectedEnd ∧ Viable L.tokens) ∨
      ∃ us t vs, L.tokens = us ++ t :: vs ∧ Impossible us t ∧
        (read text).value l = .error (.unexpected t)) := by
  intro L
  simp only [value_read]
  refine ⟨fun t h => ⟨rfl, impossible_of_parse h⟩, fun h => ?_, fun hL hk hp => ?_⟩
  · obtain ⟨hL, ⟨us, hus⟩, hp⟩ := viable_of_parse h
    refine ⟨rfl, hL, ⟨us, ?_, hus⟩, hp⟩
    rintro rfl
    exact hp (by simpa using hus)
  · cases h : parse text with
    | ok f =>
      obtain ⟨-, hf⟩ := run_eq_ok_iff.mp h
      exact (hp (phrase_iff.mpr ⟨_, hf⟩)).elim
    | error e =>
      cases e with
      | unexpected t =>
        obtain ⟨us, vs, hts, hv⟩ := impossible_of_parse h
        exact .inr ⟨us, t, vs, hts, hv, rfl⟩
      | unexpectedEnd => exact .inl ⟨rfl, (viable_of_parse h).2.1⟩
      | foreign c => simp [L, (foreign_of_parse h).2] at hL
      | unknownOperator s =>
        obtain ⟨us, r, vs, hts, -, hr, hn, -⟩ := exists_closes_of_parse h
        obtain ⟨t, ht, hto, rfl⟩ := hr.exists_operator
        exact (hn (hk t (by simp [L, hts, ht]) hto)).elim

theorem syntax_error_at_second_operator :
    let t : Token := ⟨.operator, "+", 7⟩
    (read "(x + y + z)").value .initial = .error (.unexpected t) ∧
      ∃ us vs, (Lexing.ofText "(x + y + z)").tokens = us ++ t :: vs ∧ Impossible us t := by
  intro t
  have hL : Lexing.ofText "(x + y + z)" = ⟨[⟨.leftParen, "(", 0⟩, ⟨.identifier, "x", 1⟩,
      ⟨.operator, "+", 3⟩, ⟨.identifier, "y", 5⟩, t, ⟨.identifier, "z", 9⟩,
      ⟨.rightParen, ")", 10⟩], none⟩ := by decide +kernel
  have h : (read "(x + y + z)").value .initial = .error (.unexpected t) := by
    rw [value_read, parse, hL]
    rfl
  exact ⟨h, ((syntax_error_at_first_impossible _ _).1 t h).2⟩

end Formula

end Formulary
