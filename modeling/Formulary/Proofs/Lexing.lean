import Formulary.Grammar

/-!
# Lexing piece by piece

A text is lexed from left to right, gap by gap and token by token (`Lexing.ofChars_gap`,
`Lexing.ofChars_token`), as long as no token could go on with the characters after it. Conversely
the tokens of a text without foreign characters make it up, with nothing but gaps around them
(`Lexing.segments`).
-/

namespace Formulary

namespace Token

/-! ### Characters that begin a token -/

/-- `c` begins a token of this kind. -/
def Kind.starts : Kind → Char → Bool
  | leftParen, c => c = '('
  | rightParen, c => c = ')'
  | operator, c => isOperatorChar c
  | identifier, c => isNameStart c
  | number, c => Text.isDigit c

theorem isNameStart_iff {c : Char} : isNameStart c ↔
    (65 ≤ c.toNat ∧ c.toNat ≤ 90) ∨ (97 ≤ c.toNat ∧ c.toNat ≤ 122) ∨ c = '_' := by
  have hupper : c.isUpper ↔ 65 ≤ c.toNat ∧ c.toNat ≤ 90 := decide_eq_true_iff
  have hlower : c.isLower ↔ 97 ≤ c.toNat ∧ c.toNat ≤ 122 :=
    Bool.and_eq_true_iff.trans (and_congr decide_eq_true_iff decide_eq_true_iff)
  have halpha : c.isAlpha ↔ c.isUpper ∨ c.isLower := Bool.or_eq_true_iff
  simp [isNameStart, halpha, hupper, hlower, or_assoc]

theorem isNameChar_of_isNameStart {c : Char} (h : isNameStart c) : isNameChar c := by
  simp only [isNameStart, isNameChar, Char.isAlphanum, Bool.or_eq_true] at h ⊢
  exact h.imp_left .inl

theorem isDigit_of_isNameStart {c : Char} (h : isNameStart c) : Text.isDigit c = false := by
  obtain rfl | h : c = '_' ∨ 65 ≤ c.toNat ∧ c.toNat < 0x80 := by
    rcases isNameStart_iff.mp h with h | h | h
    · exact .inr (by omega)
    · exact .inr (by omega)
    · exact .inl h
  · decide
  · rw [Bool.eq_false_iff, ne_eq, Text.isDigit_ascii h.2]
    omega

theorem isNameChar_iff {c : Char} :
    isNameChar c ↔ isNameStart c ∨ (48 ≤ c.toNat ∧ c.toNat ≤ 57) := by
  have hdigit : c.isDigit ↔ 48 ≤ c.toNat ∧ c.toNat ≤ 57 :=
    Bool.and_eq_true_iff.trans (and_congr decide_eq_true_iff decide_eq_true_iff)
  simp only [isNameChar, isNameStart, Char.isAlphanum, Bool.or_eq_true, hdigit]
  exact or_right_comm

/-- An operator character has no other use. -/
theorem of_isOperatorChar {c : Char} (h : isOperatorChar c) :
    isIgnored c = false ∧ isNameChar c = false ∧ Text.isDigit c = false ∧ c ≠ '(' ∧ c ≠ ')' := by
  have key : "-+<>/\\=%*&|!".toList.all fun c =>
      !isIgnored c && !isNameChar c && !Text.isDigit c && c != '(' && c != ')' := by decide
  have hmem : c ∈ "-+<>/\\=%*&|!".toList := by simpa [isOperatorChar] using h
  simpa [and_assoc] using List.all_eq_true.mp key c hmem

/-- A character that separates tokens has no other use. -/
theorem of_isIgnored {c : Char} (h : isIgnored c) :
    isOperatorChar c = false ∧ isNameChar c = false ∧ Text.isDigit c = false ∧
      c ≠ '(' ∧ c ≠ ')' := by
  simp only [isIgnored, Bool.or_eq_true, decide_eq_true_eq] at h
  rcases h with ((rfl | rfl) | rfl) | rfl <;> decide

/-- A parenthesis has no other use. -/
theorem of_isParen {c : Char} (h : c = '(' ∨ c = ')') :
    isIgnored c = false ∧ isOperatorChar c = false ∧ isNameChar c = false ∧
      Text.isDigit c = false := by
  rcases h with rfl | rfl <;> decide

/-- The kind of a token is settled by its first character. -/
theorem Kind.ofFirst?_eq_some_iff {k : Kind} {c : Char} : ofFirst? c = some k ↔ k.starts c := by
  have hname : isNameStart c → isNameChar c ∧ Text.isDigit c = false := fun h =>
    ⟨isNameChar_of_isNameStart h, isDigit_of_isNameStart h⟩
  have hop := @of_isOperatorChar c
  have hparen := @of_isParen c
  unfold ofFirst?
  cases k <;> simp only [starts] <;> grind

theorem Kind.starts_unique {k k' : Kind} {c : Char} (h : k.starts c) (h' : k'.starts c) :
    k = k' :=
  Option.some.inj ((ofFirst?_eq_some_iff.mpr h).symm.trans (ofFirst?_eq_some_iff.mpr h'))

theorem Kind.isIgnored_of_starts {k : Kind} {c : Char} (h : k.starts c) : isIgnored c = false := by
  rw [Bool.eq_false_iff]
  intro hc
  obtain ⟨h1, h2, h3, h4, h5⟩ := of_isIgnored hc
  cases k with
  | leftParen | rightParen | operator | number => simp_all [starts]
  | identifier => simp [isNameChar_of_isNameStart h] at h2

/-- What a token goes on with could also begin one. -/
theorem Kind.exists_starts {k : Kind} {c : Char} (h : k.continues c) :
    ∃ k' : Kind, k'.starts c := by
  cases k with
  | leftParen | rightParen => cases h
  | operator => exact ⟨.operator, h⟩
  | number => exact ⟨.number, h⟩
  | identifier =>
    rcases isNameChar_iff.mp h with h | h
    · exact ⟨.identifier, h⟩
    · exact ⟨.number, (Text.isDigit_ascii (by omega)).mpr h⟩

/-! ### The characters of one token -/

@[simp] theorem Kind.not_matches_nil {k : Kind} : ¬ k.Matches [] := by
  cases k <;> simp [Matches]

theorem Kind.Matches.ne_nil {k : Kind} {w : List Char} (h : k.Matches w) : w ≠ [] := by
  rintro rfl
  exact not_matches_nil h

theorem Kind.matches_cons {k : Kind} {c : Char} {cs : List Char} :
    k.Matches (c :: cs) ↔ k.starts c ∧ ∀ d ∈ cs, k.continues d := by
  cases k with
  | leftParen | rightParen => simp [Matches, starts, continues, List.eq_nil_iff_forall_not_mem]
  | operator | number => simp [Matches, starts, continues]
  | identifier => simp [Matches, starts, continues, and_assoc]

/-- What a token holds could also begin one. -/
theorem Kind.Matches.exists_starts {k : Kind} (hw : k.Matches w) (hc : c ∈ w) :
    ∃ k' : Kind, k'.starts c := by
  cases w with
  | nil => cases hc
  | cons d w =>
    obtain ⟨hd, hw⟩ := matches_cons.mp hw
    obtain rfl | hc := List.mem_cons.mp hc
    · exact ⟨k, hd⟩
    · exact Kind.exists_starts (hw c hc)

/-- A token of this kind before these characters has its end there. -/
def Kind.EndsBefore (k : Kind) (cs : List Char) : Prop := ∀ c ∈ cs.head?, k.continues c = false

@[simp] theorem Kind.endsBefore_nil {k : Kind} : k.EndsBefore [] := by simp [EndsBefore]

@[simp] theorem Kind.endsBefore_cons {k : Kind} {c : Char} {cs : List Char} :
    k.EndsBefore (c :: cs) ↔ k.continues c = false := by simp [EndsBefore]

/-- Every token ends where none could begin. -/
theorem Kind.endsBefore_of_not_starts {k : Kind} {cs : List Char}
    (h : ∀ c ∈ cs.head?, ∀ k' : Kind, ¬ k'.starts c) : k.EndsBefore cs := by
  intro c hc
  rw [Bool.eq_false_iff]
  intro hk
  obtain ⟨k', hk'⟩ := exists_starts hk
  exact h c hc k' hk'

theorem Kind.endsBefore_rightParen {k : Kind} {cs : List Char} : k.EndsBefore (')' :: cs) := by
  cases k <;> simp [continues] <;> decide

theorem Kind.endsBefore_ignored {k : Kind} {c : Char} {cs : List Char} (h : isIgnored c) :
    k.EndsBefore (c :: cs) := by
  obtain ⟨h1, h2, h3, _⟩ := of_isIgnored h
  cases k <;> simp [continues, h1, h2, h3]

theorem Kind.EndsBefore.takeWhile_eq {k : Kind} {cs : List Char} (h : k.EndsBefore cs) :
    cs.takeWhile k.continues = [] := by
  cases cs with
  | nil => rfl
  | cons c cs => exact List.takeWhile_cons_of_neg (by simp [endsBefore_cons.mp h])

theorem Kind.EndsBefore.dropWhile_eq {k : Kind} {cs : List Char} (h : k.EndsBefore cs) :
    cs.dropWhile k.continues = cs := by
  simpa [h.takeWhile_eq] using List.takeWhile_append_dropWhile (p := k.continues) (l := cs)

/-- A gap ends every token, so only an empty one can be followed by more of the token. -/
theorem Kind.EndsBefore.gap {k : Kind} {g cs : List Char} (hg : IsGap g) (h : k.EndsBefore cs) :
    k.EndsBefore (g ++ cs) := by
  cases g with
  | nil => exact h
  | cons c g => exact endsBefore_ignored (hg c List.mem_cons_self)

theorem Kind.EndsBefore.append {k : Kind} {cs ds : List Char} (h : k.EndsBefore cs)
    (h' : k.EndsBefore ds) : k.EndsBefore (cs ++ ds) := by
  cases cs with
  | nil => exact h'
  | cons c cs => exact h

/-- The characters `cs` are some tokens with gaps around them. -/
inductive Segments : List Token → List Char → Prop
  | gap : IsGap g → Segments [] g
  | token : IsGap g → t.kind.Matches t.text.toList → Segments ts cs →
    Segments (t :: ts) (g ++ t.text.toList ++ cs)

namespace Segments

theorem cons_ignored (hc : isIgnored c) (H : Segments ts cs) : Segments ts (c :: cs) := by
  have hgap {g} (hg : IsGap g) : IsGap (c :: g) := by simpa [IsGap, hc] using hg
  cases H with
  | gap hg => exact .gap (hgap hg)
  | token hg ht H => exact .token (hgap hg) ht H

theorem of_append (H : Segments (ts ++ us) cs) :
    ∃ as bs, cs = as ++ bs ∧ Segments ts as ∧ Segments us bs := by
  induction ts generalizing cs with
  | nil => exact ⟨[], cs, rfl, .gap .nil, H⟩
  | cons t ts ih =>
    cases H with
    | @token g _ _ cs hg ht H =>
      obtain ⟨as, bs, rfl, hts, hus⟩ := ih H
      exact ⟨g ++ t.text.toList ++ as, bs, by simp, .token hg ht hts, hus⟩

theorem of_cons (H : Segments (t :: ts) cs) : ∃ g ds, cs = g ++ t.text.toList ++ ds ∧
    IsGap g ∧ t.kind.Matches t.text.toList ∧ Segments ts ds := by
  cases H with
  | token hg ht H => exact ⟨_, _, rfl, hg, ht, H⟩

theorem singleton (H : Segments [t] cs) :
    ∃ g g', cs = g ++ t.text.toList ++ g' ∧ IsGap g ∧ IsGap g' ∧ t.kind.Matches t.text.toList := by
  obtain ⟨g, g', rfl, hg, ht, H⟩ := H.of_cons
  cases H with
  | gap hg' => exact ⟨g, g', rfl, hg, hg', ht⟩

theorem of_ignored (hg : IsGap g) (H : Segments ts cs) : Segments ts (g ++ cs) := by
  induction g with
  | nil => exact H
  | cons c g ih =>
    exact (ih fun d hd => hg d (List.mem_cons_of_mem _ hd)).cons_ignored (hg c List.mem_cons_self)

theorem matches_of_mem (H : Segments ts cs) : ∀ t ∈ ts, t.kind.Matches t.text.toList := by
  induction H with
  | gap => exact nofun
  | token _ ht _ ih => exact List.forall_mem_cons.mpr ⟨ht, ih⟩

theorem append (H : Segments ts cs) (H' : Segments us ds) : Segments (ts ++ us) (cs ++ ds) := by
  induction H with
  | gap hg => exact H'.of_ignored hg
  | token hg ht _ ih => simpa using Segments.token hg ht ih

end Segments

/-- The characters `cs`, the first of them at position `pos`, are some tokens with gaps around
them, each token as long as its kind allows. -/
inductive Spans : Nat → List Token → List Char → Prop
  | gap : IsGap g → Spans pos [] g
  | token : IsGap g → t.start = pos + g.length → t.kind.Matches t.text.toList →
    t.kind.EndsBefore cs → Spans t.stop ts cs → Spans pos (t :: ts) (g ++ t.text.toList ++ cs)

namespace Spans

theorem segments (H : Spans pos ts cs) : Segments ts cs := by
  induction H with
  | gap hg => exact .gap hg
  | token hg _ ht _ _ ih => exact .token hg ht ih

theorem cons_ignored (hc : isIgnored c) (H : Spans (pos + 1) ts cs) : Spans pos ts (c :: cs) := by
  have hgap {g} (hg : IsGap g) : IsGap (c :: g) := by simpa [IsGap, hc] using hg
  cases H with
  | gap hg => exact .gap (hgap hg)
  | token hg hstart ht hend H =>
    refine .token (hgap hg) ?_ ht hend H
    rw [hstart, List.length_cons]
    omega

theorem le_start (H : Spans pos ts cs) : ∀ t ∈ ts, pos ≤ t.start := by
  induction H with
  | gap => exact nofun
  | token _ hstart _ _ _ ih =>
    intro t ht
    obtain rfl | ht := List.mem_cons.mp ht
    · omega
    · have := ih t ht
      rw [Token.stop] at this
      omega

end Spans

end Token

namespace Lexing
open Token

/-- A lexing with some tokens before it. -/
def after (ts : List Token) (L : Lexing) : Lexing := ⟨ts ++ L.tokens, L.foreign?⟩

@[simp] theorem after_after (ts us : List Token) (L : Lexing) :
    after ts (after us L) = after (ts ++ us) L := by
  simp [after]

theorem ofChars_cons {k : Kind} {c : Char} (h : k.starts c) (pos : Nat) (cs : List Char) :
    ofChars pos (c :: cs) =
      let text := c :: cs.takeWhile k.continues
      after [⟨k, String.ofList text, pos⟩]
        (ofChars (pos + text.length) (cs.dropWhile k.continues)) := by
  rw [ofChars, if_neg (by simp [Kind.isIgnored_of_starts h]), Kind.ofFirst?_eq_some_iff.mpr h]
  rfl

theorem ofChars_gap {g : List Char} (hg : IsGap g) (pos : Nat) (cs : List Char) :
    ofChars pos (g ++ cs) = ofChars (pos + g.length) cs := by
  induction g generalizing pos with
  | nil => rfl
  | cons c g ih =>
    rw [List.cons_append, ofChars_cons_ignored (hg c List.mem_cons_self),
      ih fun d hd => hg d (List.mem_cons_of_mem _ hd), List.length_cons]
    congr 1; omega

/-- A token takes up all that it can go on with. -/
theorem ofChars_token_append {k : Kind} {w : List Char} (hw : k.Matches w) (pos : Nat)
    (cs : List Char) : ofChars pos (w ++ cs) =
      let text := w ++ cs.takeWhile k.continues
      after [⟨k, String.ofList text, pos⟩]
        (ofChars (pos + text.length) (cs.dropWhile k.continues)) := by
  cases w with
  | nil => exact (Kind.not_matches_nil hw).elim
  | cons c w =>
    obtain ⟨hc, hw⟩ := Kind.matches_cons.mp hw
    rw [List.cons_append, ofChars_cons hc, List.takeWhile_append_of_pos hw,
      List.dropWhile_append_of_pos hw]
    rfl

/-- A token is lexed whole where it cannot go on. -/
theorem ofChars_token {k : Kind} {w cs : List Char} (hw : k.Matches w) (hcs : k.EndsBefore cs)
    (pos : Nat) : ofChars pos (w ++ cs) =
      after [⟨k, String.ofList w, pos⟩] (ofChars (pos + w.length) cs) := by
  rw [ofChars_token_append hw, hcs.takeWhile_eq, hcs.dropWhile_eq, List.append_nil]

theorem ofChars_cons_foreign {c : Char} (hc : isIgnored c = false) (hk : Kind.ofFirst? c = none)
    (pos : Nat) (cs : List Char) : ofChars pos (c :: cs) = ⟨[], some ⟨c, pos⟩⟩ := by
  rw [ofChars, if_neg (Bool.not_eq_true _ ▸ hc), hk]

/-- A text is read character by character through its gaps, and else token by token. -/
@[elab_as_elim]
theorem text_induction {motive : List Char → Prop} (cs : List Char) (nil : motive [])
    (ignored : ∀ c cs, isIgnored c → motive cs → motive (c :: cs))
    (foreign : ∀ c cs, isIgnored c = false → Kind.ofFirst? c = none → motive (c :: cs))
    (token : ∀ k w cs, Kind.Matches k w → k.EndsBefore cs → motive cs → motive (w ++ cs)) :
    motive cs := by
  have H : ∀ pos : Nat, motive cs := by
    intro pos
    induction pos, cs using ofChars.induct with
    | case1 => exact nil
    | case2 pos c cs hc ih => exact ignored c cs hc ih
    | case3 pos c cs hc hk => exact foreign c cs (Bool.eq_false_iff.mpr hc) hk
    | case4 pos c cs hc k hk text ih =>
      have hk := Kind.ofFirst?_eq_some_iff.mp hk
      have hw : k.Matches (c :: cs.takeWhile k.continues) :=
        Kind.matches_cons.mpr ⟨hk, List.all_eq_true.mp List.all_takeWhile⟩
      have hend : k.EndsBefore (cs.dropWhile k.continues) := by
        intro d hd
        have := List.head?_dropWhile_not k.continues cs
        rw [hd] at this
        simpa using this
      have := token k _ _ hw hend ih
      rwa [List.cons_append, List.takeWhile_append_dropWhile] at this
  exact H 0

/-- The tokens up to the end make up the text. -/
theorem spans {pos : Nat} {cs : List Char} (h : (ofChars pos cs).foreign? = none) :
    Spans pos (ofChars pos cs).tokens cs := by
  induction cs using text_induction generalizing pos with
  | nil => simpa using Spans.gap .nil
  | ignored c cs hc ih =>
    rw [ofChars_cons_ignored hc] at h ⊢
    exact (ih h).cons_ignored hc
  | foreign c cs hc hk => simp [ofChars_cons_foreign hc hk] at h
  | token k w cs hw hcs ih =>
    rw [ofChars_token hw hcs] at h ⊢
    let t : Token := ⟨k, String.ofList w, pos⟩
    have hstop : t.stop = pos + w.length := by simp [t, Token.stop]
    have hrest : Spans t.stop (ofChars (pos + w.length) cs).tokens cs := by
      rw [hstop]
      exact ih h
    simpa [t, after] using Spans.token (t := t) .nil rfl (by simpa [t] using hw) hcs hrest

theorem segments {pos : Nat} {cs : List Char} (h : (ofChars pos cs).foreign? = none) :
    Segments (ofChars pos cs).tokens cs :=
  (spans h).segments

end Lexing

end Formulary
