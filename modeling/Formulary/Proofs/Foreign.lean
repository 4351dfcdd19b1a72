import Formulary.Analysis
import Formulary.Proofs.Failure
import Formulary.Proofs.Lexing

/-!
# Foreign characters

A character is foreign if no gap and no token can hold it. The lexing of a text ends at the first
foreign character, wherever the tokens before it happen to end (`Lexing.ofChars_foreign`,
`Lexing.foreign?_eq_some_iff`). Reading comes to it if the tokens before it begin a phrase and only
the last one of them closes a group with an unknown operator, for that group would have been looked
at with the next token (`Formula.read_eq_foreign_iff`).
-/

namespace Formulary

namespace Token

/-- No gap and no token has this character in it. -/
def IsForeign (c : Char) : Prop :=
  isIgnored c = false ∧ ∀ (k : Kind) (w : List Char), k.Matches w → c ∉ w

theorem IsForeign.not_starts {c : Char} (hc : IsForeign c) (k : Kind) : ¬ k.starts c :=
  fun h => hc.2 k [c] (Kind.matches_cons.mpr ⟨h, nofun⟩) List.mem_cons_self

theorem isForeign_iff {c : Char} :
    IsForeign c ↔ isIgnored c = false ∧ Kind.ofFirst? c = none := by
  rw [Option.eq_none_iff_forall_ne_some]
  constructor
  · intro hc
    exact ⟨hc.1, fun k hk => hc.not_starts k (Kind.ofFirst?_eq_some_iff.mp hk)⟩
  · rintro ⟨hignored, h⟩
    refine ⟨hignored, fun k w hw hc => ?_⟩
    obtain ⟨k', hk'⟩ := hw.exists_starts hc
    exact h k' (Kind.ofFirst?_eq_some_iff.mpr hk')

instance : DecidablePred IsForeign := fun _ => decidable_of_iff _ isForeign_iff.symm

/-- A foreign character ends every token. -/
theorem IsForeign.endsBefore {c : Char} (hc : IsForeign c) (k : Kind) (cs : List Char) :
    k.EndsBefore (c :: cs) := by
  apply Kind.endsBefore_of_not_starts
  intro d hd
  obtain rfl : c = d := Option.some.inj hd
  exact hc.not_starts

end Token

namespace Lexing
open Token

theorem foreign?_eq_none_iff {pos : Nat} {cs : List Char} :
    (ofChars pos cs).foreign? = none ↔ ∀ c ∈ cs, ¬ IsForeign c := by
  induction cs using text_induction generalizing pos with
  | nil => simp
  | ignored c cs hc ih =>
    have hgap : ¬ IsForeign c := fun h => by simp [h.1] at hc
    rw [ofChars_cons_ignored hc, ih, List.forall_mem_cons, and_iff_right hgap]
  | foreign c cs hc hk =>
    have hforeign : IsForeign c := isForeign_iff.mpr ⟨hc, hk⟩
    simp [ofChars_cons_foreign hc hk, hforeign]
  | token k w cs hw hcs ih =>
    have htoken : ∀ c ∈ w, ¬ IsForeign c := fun c hc h => h.2 k w hw hc
    rw [ofChars_token hw hcs, List.forall_mem_append, and_iff_right htoken, ← ih]
    rfl

/-- Two texts in a row have their tokens in a row, if none of the first can go on in the second. -/
theorem ofChars_append {cs ds : List Char} (hcs : ∀ c ∈ cs, ¬ IsForeign c)
    (hds : ∀ k : Kind, k.EndsBefore ds) (pos : Nat) :
    ofChars pos (cs ++ ds) = after (ofChars pos cs).tokens (ofChars (pos + cs.length) ds) := by
  induction cs using text_induction generalizing pos with
  | nil => simp [after]
  | ignored c cs hc ih =>
    have hcs := (List.forall_mem_cons.mp hcs).2
    rw [List.cons_append, ofChars_cons_ignored hc, ofChars_cons_ignored hc, ih hcs,
      List.length_cons, Nat.add_right_comm, Nat.add_assoc]
  | foreign c cs hc hk => exact absurd (isForeign_iff.mpr ⟨hc, hk⟩) (hcs c List.mem_cons_self)
  | token k w cs hw hend ih =>
    have hcs := (List.forall_mem_append.mp hcs).2
    rw [List.append_assoc, ofChars_token hw (hend.append (hds k)), ofChars_token hw hend, ih hcs,
      after_after, List.length_append, Nat.add_assoc]
    rfl

/-- The lexing of a text ends at its first foreign character. -/
theorem ofChars_foreign {cs : List Char} {c : Char} (hcs : ∀ d ∈ cs, ¬ IsForeign d)
    (hc : IsForeign c) (pos : Nat) (ds : List Char) :
    ofChars pos (cs ++ c :: ds) = ⟨(ofChars pos cs).tokens, some ⟨c, pos + cs.length⟩⟩ := by
  obtain ⟨hignored, hfirst⟩ := isForeign_iff.mp hc
  rw [ofChars_append hcs fun k => hc.endsBefore k ds, ofChars_cons_foreign hignored hfirst, after,
    List.append_nil]

theorem foreign?_eq_some_iff {pos : Nat} {cs : List Char} {c : Char} {p : Nat} :
    (ofChars pos cs).foreign? = some ⟨c, p⟩ ↔ ∃ as bs, cs = as ++ c :: bs ∧
      p = pos + as.length ∧ IsForeign c ∧ ∀ d ∈ as, ¬ IsForeign d := by
  constructor
  · intro h
    cases hfirst : cs.find? (IsForeign ·) with
    | none =>
      have hnone : ∀ d ∈ cs, ¬ IsForeign d := by simpa using hfirst
      rw [foreign?_eq_none_iff.mpr hnone] at h
      cases h
    | some d =>
      obtain ⟨hd, as, bs, rfl, has⟩ := List.find?_eq_some_iff_append.mp hfirst
      have hd : IsForeign d := by simpa using hd
      have has : ∀ d ∈ as, ¬ IsForeign d := by simpa using has
      rw [ofChars_foreign has hd] at h
      cases h
      exact ⟨as, bs, rfl, rfl, hd, has⟩
  · rintro ⟨as, bs, rfl, rfl, hc, has⟩
    rw [ofChars_foreign has hc]

end Lexing

/-! ### Messages -/

theorem head?_toList_append {s t : String} (h : s.toList.head? = some c) :
    (s ++ t).toList.head? = some c := by
  rw [String.toList_append, List.head?_append, h, Option.some_or]

/-- The first letter of the message. -/
def ReadError.initial : ReadError → Char
  | unexpected _ | unexpectedEnd => 'S'
  | foreign _ => 'R'
  | unknownOperator _ => 'F'

theorem ReadError.head?_message (e : ReadError) : e.message.toList.head? = some e.initial := by
  have hsyntax : "Syntax error near '".toList.head? = some 'S' := by decide
  have hfailed : "Read failed: ".toList.head? = some 'R' := by decide
  have hfound : "Found unknown binary operator: ".toList.head? = some 'F' := by decide
  cases e with
  | unexpected t =>
    iterate 5 apply head?_toList_append
    exact hsyntax
  | unexpectedEnd => decide
  | foreign f => exact head?_toList_append hfailed
  | unknownOperator s => exact head?_toList_append hfound

theorem ForeignChar.head?_message (f : ForeignChar) : f.message.toList.head? = some 'I' := by
  have hillegal : "Illegal character '".toList.head? = some 'I' := by decide
  iterate 3 apply head?_toList_append
  exact hillegal

theorem ReadError.message_ne (e : ReadError) (f : ForeignChar) : e.message ≠ f.message := by
  intro h
  have hinitial := e.head?_message
  rw [h, f.head?_message] at hinitial
  cases e <;> cases hinitial

theorem ForeignChar.message_injective {f g : ForeignChar} (h : f.message = g.message) : f = g := by
  obtain ⟨c, p⟩ := f
  obtain ⟨d, q⟩ := g
  have h : "Illegal character '" ++ c.toString ++ "' encountered at position " ++ toString p =
    "Illegal character '" ++ d.toString ++ "' encountered at position " ++ toString q := h
  -- the literals stay closed: what stands between them is one character, and then the digits of `p`
  generalize "Illegal character '" = a, "' encountered at position " = b at h
  have hlist := congrArg String.toList h
  simp only [Char.toString, String.toList_append, String.toList_singleton, List.append_assoc,
    List.append_cancel_left_eq, List.cons_append, List.nil_append, List.cons.injEq,
    Nat.toString_eq_ofList_toDigits, String.toList_ofList] at hlist
  obtain ⟨hchar, hdigits⟩ := hlist
  have hposition := congrArg (Nat.ofDigitChars 10 · 0) hdigits
  rw [Nat.ofDigitChars_ten_toDigits, Nat.ofDigitChars_ten_toDigits] at hposition
  rw [hchar, hposition]

theorem ReadError.message_foreign (f : ForeignChar) : (foreign f).message =
    "Read failed: Illegal character '" ++ f.char.toString ++ "' encountered at position " ++
      toString f.position := by
  have hmessage : (foreign f).message = "Read failed: " ++ ("Illegal character '" ++
    f.char.toString ++ "' encountered at position " ++ toString f.position) := rfl
  have hliteral : "Read failed: Illegal character '" = "Read failed: " ++ "Illegal character '" := by
    decide
  rw [hmessage, hliteral, ← String.append_assoc, ← String.append_assoc, ← String.append_assoc]

/-- The message of a foreign character tells the character and its position. -/
theorem ReadError.message_eq_foreign_iff {e : ReadError} {f : ForeignChar} :
    e.message = (foreign f).message ↔ e = .foreign f := by
  refine ⟨fun h => ?_, congrArg message⟩
  have hinitial : some e.initial = some 'R' := by
    rw [← e.head?_message, h]
    exact head?_message _
  cases e with
  | unexpected | unexpectedEnd | unknownOperator => cases hinitial
  | foreign g =>
    have h : "Read failed: " ++ g.message = "Read failed: " ++ f.message := h
    rw [String.append_right_inj] at h
    rw [ForeignChar.message_injective h]

namespace Formula
open Token Reader

theorem parse_eq_foreign_iff {text : String} {f : ForeignChar} :
    parse text = .error (.foreign f) ↔
      (∃ σ, Reaches (Lexing.ofText text).tokens σ) ∧ (Lexing.ofText text).foreign? = some f := by
  refine ⟨foreign_of_parse, fun ⟨⟨σ, H⟩, h⟩ => ?_⟩
  exact run_eq_error_iff.mpr (.inr ⟨σ, H, .inl ⟨f, h, rfl⟩⟩)

/-- Reading fails at a foreign character if and only if it is the first one, the tokens before it
begin a phrase, and no token but the last of them closes a group with an unknown operator. The
character and its position are told in a message of reading, never in that of the lexing alone. -/
theorem read_eq_foreign_iff (text : String) (c : Char) (p : Nat) (l : Logger) :
    ((read text).value l = .error (.foreign ⟨c, p⟩) ↔
      ∃ before after, text.toList = before ++ c :: after ∧ before.length = p ∧ IsForeign c ∧
        (∀ d ∈ before, ¬ IsForeign d) ∧
        let ts := (Lexing.ofText (String.ofList before)).tokens
        Viable ts ∧ ClosesKnown ts.dropLast) ∧
    ∀ e, (read text).value l = .error e →
      (e.message = "Read failed: Illegal character '" ++ c.toString ++
        "' encountered at position " ++ toString p ↔ e = .foreign ⟨c, p⟩) ∧
      ∀ f : ForeignChar, e.message ≠ f.message := by
  rw [value_read]
  refine ⟨?_, fun e _ => ⟨?_, e.message_ne⟩⟩
  · rw [parse_eq_foreign_iff, exists_reaches_iff, Lexing.ofText, Lexing.foreign?_eq_some_iff]
    constructor
    · rintro ⟨⟨hv, hk⟩, before, after, htext, hp, hc, hbefore⟩
      rw [htext, Lexing.ofChars_foreign hbefore hc] at hv hk
      refine ⟨before, after, htext, (hp.trans (Nat.zero_add _)).symm, hc, hbefore, ?_⟩
      rw [Lexing.ofText, String.toList_ofList]
      exact ⟨hv, hk⟩
    · rintro ⟨before, after, htext, hp, hc, hbefore, hv, hk⟩
      rw [Lexing.ofText, String.toList_ofList] at hv hk
      refine ⟨?_, before, after, htext, ?_, hc, hbefore⟩
      · rw [htext, Lexing.ofChars_foreign hbefore hc]
        exact ⟨hv, hk⟩
      · rw [hp, Nat.zero_add]
  · rw [← ReadError.message_foreign ⟨c, p⟩, ReadError.message_eq_foreign_iff]

theorem read_eq_foreign_iff_lookahead :
    let e : ReadError := .foreign ⟨'@', 9⟩
    (read "(x && y) @").value .initial = .error e ∧
      e.message = "Read failed: Illegal character '@' encountered at position 9" := by
  intro e
  let l : Token := ⟨.leftParen, "(", 0⟩
  let x : Token := ⟨.identifier, "x", 1⟩
  let o : Token := ⟨.operator, "&&", 3⟩
  let y : Token := ⟨.identifier, "y", 6⟩
  let r : Token := ⟨.rightParen, ")", 7⟩
  have hlexing : Lexing.ofText (String.ofList "(x && y) ".toList) = ⟨[l, x, o, y, r], none⟩ := by
    decide +kernel
  have hbefore : ∀ d ∈ "(x && y) ".toList, ¬ IsForeign d := by
    have hforeign := congrArg Lexing.foreign? hlexing
    rwa [Lexing.ofText, String.toList_ofList, Lexing.foreign?_eq_none_iff] at hforeign
  have hx : Phrase [x] := .atom (.inl rfl)
  have hy : Phrase [y] := .atom (.inl rfl)
  have hphrase : Phrase [l, x, o, y, r] := .binary rfl hx rfl hy rfl
  have hknown : ClosesKnown [l, x, o, y] := by
    intro us t vs s h ht
    have hmem : t ∈ [l, x, o, y] := by simp [h]
    have hkind := ht.1
    simp only [List.mem_cons, List.not_mem_nil, or_false] at hmem
    rcases hmem with rfl | rfl | rfl | rfl <;> cases hkind
  obtain ⟨H, hmessage⟩ := read_eq_foreign_iff "(x && y) @" '@' 9 .initial
  have h : (read "(x && y) @").value .initial = .error e := by
    refine H.mpr ⟨"(x && y) ".toList, [], by decide, by decide, by decide, hbefore, ?_⟩
    rw [hlexing]
    exact ⟨hphrase.viable, hknown⟩
  exact ⟨h, ((hmessage e h).1.mpr rfl).trans (by decide)⟩

end Formula

end Formulary
