import Formulary.Proofs.Draft
import Formulary.Proofs.Lexing
import Formulary.Text.Blank
import Formulary.Text.LineEnd
import Mathlib.Data.List.DropRight

/-!
# Line ends and blanks around a text

Positions matter for nothing but the errors that tell them (`Reader.run_unplaced`), so a text keeps
its formula when its tokens move. They do so with another choice of line ends
(`Lexing.unplaced_unifyLineEnds`) and when a gap before them goes. Blanks that are no gaps are
foreign characters: a text that is read in spite of them has none before its tokens, and those after
its tokens have never been reached (`Formula.parse_trim_unifyLineEnds`).
-/

namespace Formulary

/-! ### Positions -/

/-- The token at the front of a text. -/
def Token.unplaced (t : Token) : Token := { t with start := 0 }

def ForeignChar.unplaced (c : ForeignChar) : ForeignChar := { c with position := 0 }

/-- A lexing without its positions. -/
def Lexing.unplaced (L : Lexing) : Lexing :=
  ⟨L.tokens.map Token.unplaced, L.foreign?.map ForeignChar.unplaced⟩

def ReadError.unplaced : ReadError → ReadError
  | unexpected t => .unexpected t.unplaced
  | unexpectedEnd => .unexpectedEnd
  | foreign c => .foreign c.unplaced
  | unknownOperator symbol => .unknownOperator symbol

namespace Reader

theorem Operand.mapError_settle (o : Operand) :
    o.settle.mapError ReadError.unplaced = o.settle := by
  cases o with
  | whole f => rfl
  | joined left symbol right => rw [settle]; split <;> rfl

namespace State

theorem step_unplaced (s : State) (t : Token) :
    s.step t.unplaced = (s.step t).mapError ReadError.unplaced := by
  have hkind : t.unplaced.kind = t.kind := rfl
  cases s with
  | wanting frames =>
    rw [step, step, hkind]
    cases t.kind <;> rfl
  | holding operand frames =>
    rw [step, step, hkind]
    cases t.kind with
    | leftParen | identifier | number => rfl
    | operator | rightParen =>
      simp only [mapError_bind, operand.mapError_settle]
      congr 1
      funext f
      split <;> rfl

theorem mapError_finish (s : State) : s.finish.mapError ReadError.unplaced = s.finish := by
  cases s with
  | wanting frames => rfl
  | holding operand frames =>
    rw [finish, mapError_bind, operand.mapError_settle]
    cases frames <;> rfl

theorem foldlM_unplaced (s : State) (ts : List Token) :
    (ts.map Token.unplaced).foldlM step s = (ts.foldlM step s).mapError ReadError.unplaced := by
  induction ts generalizing s with
  | nil => rfl
  | cons t ts ih => simp only [List.map_cons, List.foldlM_cons, mapError_bind, step_unplaced, ih]

end State

/-- Without positions in the text there are none in the errors, and nothing else changes. -/
theorem run_unplaced (L : Lexing) : run L.unplaced = (run L).mapError ReadError.unplaced := by
  rw [run, run, mapError_bind]
  have htokens : L.unplaced.tokens = L.tokens.map Token.unplaced := rfl
  rw [htokens, State.foldlM_unplaced]
  congr 1
  funext s
  have hforeign : L.unplaced.foreign? = L.foreign?.map ForeignChar.unplaced := rfl
  rw [hforeign]
  cases L.foreign? with
  | none => exact s.mapError_finish.symm
  | some c => rfl

end Reader

/-! ### Moving tokens -/

namespace Lexing
open Token Text

theorem unplaced_after (ts : List Token) (L : Lexing) :
    (after ts L).unplaced = after (ts.map Token.unplaced) L.unplaced := by
  simp [after, unplaced]

/-- The tokens are the same wherever the text begins. -/
theorem unplaced_ofChars (pos pos' : Nat) (cs : List Char) :
    (ofChars pos cs).unplaced = (ofChars pos' cs).unplaced := by
  induction cs using text_induction generalizing pos pos' with
  | nil => simp
  | ignored c cs hc ih =>
    rw [ofChars_cons_ignored hc, ofChars_cons_ignored hc]
    exact ih _ _
  | foreign c cs hc hk =>
    rw [ofChars_cons_foreign hc hk, ofChars_cons_foreign hc hk]
    rfl
  | token k w cs hw hcs ih =>
    rw [ofChars_token hw hcs, ofChars_token hw hcs, unplaced_after, unplaced_after, ih]
    rfl

/-! ### Line ends -/

theorem cr_not_mem_of_matches {k : Kind} {w : List Char} (hw : k.Matches w) : '\r' ∉ w := by
  intro h
  obtain ⟨k', hk'⟩ := hw.exists_starts h
  exact absurd (Kind.isIgnored_of_starts hk') (by decide)

theorem endsBefore_unifyLineEnds {k : Kind} {cs : List Char} (h : k.EndsBefore cs) :
    k.EndsBefore (unifyLineEnds cs) := by
  have hlf (ds : List Char) : k.EndsBefore ('\n' :: ds) := Kind.endsBefore_ignored (by decide)
  fun_cases unifyLineEnds cs with
  | case1 => exact h
  | case2 cs => exact hlf _
  | case3 c cs =>
    by_cases hc : c = '\r'
    · rw [if_pos hc]
      exact hlf _
    · rw [if_neg hc]
      exact h

/-- Another choice of line ends moves the tokens and does nothing else. -/
theorem unplaced_unifyLineEnds (pos pos' : Nat) (cs : List Char) :
    (ofChars pos (unifyLineEnds cs)).unplaced = (ofChars pos' cs).unplaced := by
  induction cs using text_induction generalizing pos pos' with
  | nil => simp
  | ignored c cs hc ih =>
    have hlf (ds : List Char) (pos : Nat) : ofChars pos ('\n' :: ds) = ofChars (pos + 1) ds :=
      ofChars_cons_ignored (by decide) pos ds
    rw [ofChars_cons_ignored hc pos']
    by_cases hcr : c = '\r'
    · subst hcr
      by_cases hhead : cs.head? = some '\n'
      · obtain ⟨ds, rfl⟩ := List.head?_eq_some_iff.mp hhead
        rw [unifyLineEnds_cr_lf, ← unifyLineEnds_cons (by decide)]
        exact ih pos (pos' + 1)
      · rw [unifyLineEnds_cr hhead, hlf]
        exact ih _ _
    · rw [unifyLineEnds_cons hcr, ofChars_cons_ignored hc]
      exact ih _ _
  | foreign c cs hc hk =>
    have hcr : c ≠ '\r' := by
      rintro rfl
      exact absurd hc (by decide)
    rw [unifyLineEnds_cons hcr, ofChars_cons_foreign hc hk, ofChars_cons_foreign hc hk]
    rfl
  | token k w cs hw hcs ih =>
    rw [unifyLineEnds_append (cr_not_mem_of_matches hw),
      ofChars_token hw (endsBefore_unifyLineEnds hcs), ofChars_token hw hcs, unplaced_after,
      unplaced_after, ih]
    rfl

/-! ### Blanks at the ends -/

theorem isDigit_of_isBlank {c : Char} (h : isBlank c) : isDigit c = false := by
  rw [Bool.eq_false_iff]
  intro hd
  obtain ⟨z, hz, h1, h2⟩ := isDigit_iff.mp hd
  -- no ten digits reach over a blank
  have key : digitZeros.all fun z => (0x20 < z && z + 10 ≤ 0x85) || (0xA0 < z && z + 10 ≤ 0x1680) ||
      (0x1680 < z && z + 10 ≤ 0x2000) || 0x3000 < z := by decide
  have := List.all_eq_true.mp key z hz
  simp only [isBlank, Bool.or_eq_true, Bool.and_eq_true, decide_eq_true_eq, beq_iff_eq] at h this
  omega

theorem not_starts_of_isBlank {c : Char} (h : isBlank c) (k : Kind) : ¬ k.starts c := by
  have hblank : c.toNat ≤ 0x20 ∨ 0x85 ≤ c.toNat := by
    simp only [isBlank, Bool.or_eq_true, Bool.and_eq_true, decide_eq_true_eq, beq_iff_eq] at h
    omega
  intro hc
  cases k with
  | leftParen | rightParen =>
    rw [of_decide_eq_true hc] at h
    exact absurd h (by decide)
  | operator =>
    have key : "-+<>/\\=%*&|!".toList.all fun c => !isBlank c := by decide
    have := List.all_eq_true.mp key c (by simpa [Kind.starts, isOperatorChar] using hc)
    simp [h] at this
  | identifier =>
    rcases isNameStart_iff.mp hc with hc | hc | rfl
    · omega
    · omega
    · exact absurd h (by decide)
  | number => exact absurd hc (Bool.eq_false_iff.mp (isDigit_of_isBlank h))

/-- A blank ends every token. -/
theorem endsBefore_of_isBlank {g : List Char} (hg : ∀ c ∈ g, isBlank c) (k : Kind) :
    k.EndsBefore g :=
  Kind.endsBefore_of_not_starts fun c hc => not_starts_of_isBlank (hg c (List.mem_of_mem_head? hc))

theorem ofFirst?_of_isBlank {c : Char} (h : isBlank c) : Kind.ofFirst? c = none := by
  rw [Option.eq_none_iff_forall_ne_some]
  exact fun k hk => not_starts_of_isBlank h k (Kind.ofFirst?_eq_some_iff.mp hk)

/-- Blanks before a text are a gap, or the first character beyond the gap is foreign. -/
theorem gap_or_foreign {g : List Char} (hg : ∀ c ∈ g, isBlank c) (pos : Nat) (cs : List Char) :
    IsGap g ∨ ∃ c, ofChars pos (g ++ cs) = ⟨[], some c⟩ := by
  induction g generalizing pos with
  | nil => exact .inl .nil
  | cons c g ih =>
    obtain ⟨hc, hg⟩ := List.forall_mem_cons.mp hg
    rw [List.cons_append]
    cases hignored : isIgnored c with
    | true =>
      rw [ofChars_cons_ignored hignored]
      refine (ih hg _).imp_left fun hgap => ?_
      exact List.forall_mem_cons.mpr ⟨hignored, hgap⟩
    | false =>
      rw [ofChars_cons_foreign hignored (ofFirst?_of_isBlank hc)]
      exact .inr ⟨_, rfl⟩

theorem tokens_of_blank {g : List Char} (hg : ∀ c ∈ g, isBlank c) (pos : Nat) :
    (ofChars pos g).tokens = [] := by
  obtain hgap | ⟨c, hc⟩ := gap_or_foreign hg pos []
  · rw [← List.append_nil g, ofChars_gap hgap, ofChars_nil]
  · rw [List.append_nil] at hc
    rw [hc]

/-- Blanks after a text give no token. Those that are no gaps are foreign. -/
theorem ofChars_append_blank {g : List Char} (hg : ∀ c ∈ g, isBlank c) (pos : Nat)
    (cs : List Char) : (ofChars pos (cs ++ g)).tokens = (ofChars pos cs).tokens ∧
      ((ofChars pos (cs ++ g)).foreign? = none → (ofChars pos cs).foreign? = none) := by
  induction cs using text_induction generalizing pos with
  | nil => simp [tokens_of_blank hg]
  | ignored c cs hc ih =>
    rw [List.cons_append, ofChars_cons_ignored hc, ofChars_cons_ignored hc]
    exact ih _
  | foreign c cs hc hk =>
    rw [List.cons_append, ofChars_cons_foreign hc hk, ofChars_cons_foreign hc hk]
    exact ⟨rfl, id⟩
  | token k w cs hw hcs ih =>
    have hend : k.EndsBefore (cs ++ g) := hcs.append (endsBefore_of_isBlank hg k)
    rw [List.append_assoc, ofChars_token hw hend, ofChars_token hw hcs]
    exact ⟨congrArg (_ ++ ·) (ih _).1, (ih _).2⟩

end Lexing

namespace Text

/-- Only blanks are trimmed away. -/
theorem exists_eq_trim (cs : List Char) : ∃ g g', cs = g ++ (trim cs ++ g') ∧
    (∀ c ∈ g, isBlank c) ∧ ∀ c ∈ g', isBlank c := by
  have htrim : trim cs = (cs.dropWhile isBlank).rdropWhile isBlank := rfl
  refine ⟨cs.takeWhile isBlank, (cs.dropWhile isBlank).rtakeWhile isBlank, ?_, ?_, ?_⟩
  · rw [htrim, List.rdropWhile_append_rtakeWhile, List.takeWhile_append_dropWhile]
  · exact fun c hc => List.mem_takeWhile_imp hc
  · exact fun c hc => List.mem_rtakeWhile_imp hc

theorem trim_eq_nil_iff {cs : List Char} : trim cs = [] ↔ ∀ c ∈ cs, isBlank c := by
  constructor
  · intro h c hc
    obtain ⟨g, g', hcs, hg, hg'⟩ := exists_eq_trim cs
    rw [hcs, h, List.nil_append] at hc
    exact (List.mem_append.mp hc).elim (hg c) (hg' c)
  · intro h
    apply List.rdropWhile_eq_nil_iff.mpr
    exact fun c hc => h c ((List.dropWhile_sublist _).mem hc)

end Text

/-! ### The formula -/

/-- What is found to be a formula, or to be none for its operators alone. -/
def Grammatical (r : Except ReadError Formula) : Prop :=
  (∃ f, r = .ok f) ∨ ∃ s, r = .error (.unknownOperator s)

theorem Grammatical.eq_of_unplaced {r r' : Except ReadError Formula} (hr : Grammatical r)
    (h : r'.mapError ReadError.unplaced = r.mapError ReadError.unplaced) : r' = r := by
  rcases hr with ⟨f, rfl⟩ | ⟨s, rfl⟩ <;> rcases r' with e | f'
  · cases h
  · cases h
    rfl
  · cases e <;> cases h
    rfl
  · cases h

namespace Reader

theorem run_eq_of_unplaced {L L' : Lexing} (hr : Grammatical (run L))
    (h : L'.unplaced = L.unplaced) : run L' = run L :=
  hr.eq_of_unplaced (by rw [← run_unplaced, ← run_unplaced, h])

/-- No foreign character has been reached, so one the fewer makes no difference. -/
theorem run_eq_of_tokens {L L' : Lexing} (hr : Grammatical (run L)) (htokens : L.tokens = L'.tokens)
    (hforeign : L.foreign? = none → L'.foreign? = none) : run L' = run L := by
  rw [run] at hr
  rw [run, run, ← htokens]
  cases hs : L.tokens.foldlM State.step State.initial with
  | error e => rfl
  | ok s =>
    rw [hs, ok_bind] at hr
    cases hc : L.foreign? with
    | none => simp only [ok_bind, hforeign hc]
    | some c =>
      rw [hc] at hr
      rcases hr with ⟨f, hf⟩ | ⟨s, hs⟩
      · cases hf
      · cases hs

end Reader

/-- A grammatical text is read alike from a file. -/
theorem Formula.parse_trim_unifyLineEnds {text : String} (hr : Grammatical (parse text)) :
    parse (String.ofList (Text.trim (Text.unifyLineEnds text.toList))) = parse text := by
  obtain ⟨g, g', hsplit, hg, hg'⟩ := Text.exists_eq_trim (Text.unifyLineEnds text.toList)
  generalize Text.trim (Text.unifyLineEnds text.toList) = cs at hsplit
  have hunified : Reader.run (Lexing.ofChars 0 (g ++ (cs ++ g'))) = parse text := by
    rw [← hsplit]
    exact Reader.run_eq_of_unplaced hr (Lexing.unplaced_unifyLineEnds 0 0 _)
  obtain hgap | ⟨c, hc⟩ := Lexing.gap_or_foreign hg 0 (cs ++ g')
  · have hleft : Reader.run (Lexing.ofChars 0 (cs ++ g')) = parse text := by
      rw [Lexing.ofChars_gap hgap] at hunified
      rw [← hunified] at hr ⊢
      exact Reader.run_eq_of_unplaced hr (Lexing.unplaced_ofChars _ _ _)
    have hright := Lexing.ofChars_append_blank hg' 0 cs
    rw [← hleft] at hr ⊢
    rw [parse, Lexing.ofText, String.toList_ofList]
    exact Reader.run_eq_of_tokens hr hright.1 hright.2
  · rw [hc] at hunified
    rw [← hunified] at hr
    rcases hr with ⟨f, hf⟩ | ⟨s, hs⟩
    · cases hf
    · cases hs

end Formulary
