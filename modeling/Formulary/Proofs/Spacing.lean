import Formulary.Proofs.Layout
import Formulary.Proofs.Segmentation

/-!
# Gaps between tokens

A gap put between two tokens moves what follows it and does nothing else: the text before it and
the text after it are lexed on their own (`Lexing.exists_append_of_cut`, `Lexing.ofChars_shift`). To
take the gap between two tokens away is to let the first one go on in the second as far as it can
(`Lexing.ofChars_append_last`), and whether it goes on at all is a matter of their kinds
(`Token.continues_iff_fuses`).
-/

namespace Formulary

/-- A text without its first `n` characters. -/
def Text.dropChars (n : Nat) (text : String) : String := String.ofList (text.toList.drop n)

@[simp] theorem Text.toList_dropChars (n : Nat) (text : String) :
    (dropChars n text).toList = text.toList.drop n := String.toList_ofList

/-! ### Moving -/

/-- The token `n` characters later, if it begins at position `p` or after it. -/
def Token.shift (p n : Nat) (t : Token) : Token :=
  if p ≤ t.start then { t with start := t.start + n } else t

def ForeignChar.shift (p n : Nat) (c : ForeignChar) : ForeignChar :=
  if p ≤ c.position then { c with position := c.position + n } else c

/-- The lexing with all that stands at position `p` or after it `n` characters later. -/
def Lexing.shift (p n : Nat) (L : Lexing) : Lexing :=
  ⟨L.tokens.map (Token.shift p n), L.foreign?.map (ForeignChar.shift p n)⟩

theorem Token.shift_of_lt {p n : Nat} {t : Token} (h : t.start < p) : t.shift p n = t :=
  if_neg (Nat.not_le_of_lt h)

namespace Lexing
open Token

theorem shift_after (p n : Nat) (ts : List Token) (L : Lexing) :
    (after ts L).shift p n = after (ts.map (Token.shift p n)) (L.shift p n) := by
  simp [after, shift]

/-- A text that begins later has all its tokens later. -/
theorem ofChars_shift {p pos : Nat} (h : p ≤ pos) (n : Nat) (cs : List Char) :
    ofChars (pos + n) cs = (ofChars pos cs).shift p n := by
  induction cs using text_induction generalizing pos with
  | nil => rw [ofChars_nil, ofChars_nil]; rfl
  | ignored c cs hc ih =>
    rw [ofChars_cons_ignored hc, ofChars_cons_ignored hc, ← ih (Nat.le_add_right_of_le h),
      Nat.add_right_comm]
  | foreign c cs hc hk =>
    rw [ofChars_cons_foreign hc hk, ofChars_cons_foreign hc hk, shift, Option.map_some,
      ForeignChar.shift, if_pos h]
    rfl
  | token k w cs hw hcs ih =>
    rw [ofChars_token hw hcs, ofChars_token hw hcs, shift_after, ← ih (Nat.le_add_right_of_le h),
      Nat.add_right_comm, List.map_singleton, Token.shift, if_pos h]

end Lexing

/-! ### Cutting -/

namespace Token

theorem Spans.stop_le (H : Spans pos ts cs) : ∀ t ∈ ts, t.stop ≤ pos + cs.length := by
  induction H with
  | gap => exact nofun
  | @token g pos ts cs t hg hstart ht hend H ih =>
    have hstop : t.stop = t.start + t.text.length := rfl
    have hlength : (g ++ t.text.toList ++ cs).length = g.length + t.text.length + cs.length := by
      rw [List.length_append, List.length_append, String.length_toList]
    intro u hu
    obtain rfl | hu := List.mem_cons.mp hu
    · omega
    · have := ih u hu
      omega

/-- Tokens of a text stay where they are if what comes after the text moves. -/
theorem Spans.map_shift (H : Spans pos ts cs) (hp : pos + cs.length ≤ p) (n : Nat) :
    ts.map (Token.shift p n) = ts := by
  have hshift : ∀ t ∈ ts, t.shift p n = id t := fun t ht => by
    have := start_lt_stop (H.segments.matches_of_mem t ht)
    have := H.stop_le t ht
    exact Token.shift_of_lt (by omega)
  rw [List.map_congr_left hshift, List.map_id]

/-- The pieces up to the end of a token and after it. -/
theorem Spans.of_append (H : Spans pos (us ++ t :: vs) cs) :
    ∃ as bs, cs = as ++ bs ∧ t.stop = pos + as.length ∧ Spans pos (us ++ [t]) as ∧
      Spans t.stop vs bs := by
  induction us generalizing pos cs with
  | nil =>
    cases H with
    | @token g _ _ cs _ hg hstart ht hend H =>
    refine ⟨g ++ t.text.toList, cs, rfl, ?_, ?_, H⟩
    · rw [Token.stop, hstart, List.length_append, String.length_toList, Nat.add_assoc]
    · simpa using Spans.token hg hstart ht Kind.endsBefore_nil (.gap .nil)
  | cons u us ih =>
    cases H with
    | @token g _ _ cs _ hg hstart hu hend H =>
    obtain ⟨as, bs, rfl, hstop, has, hbs⟩ := ih H
    refine ⟨g ++ u.text.toList ++ as, bs, by simp, ?_, .token hg hstart hu hend.of_append has, hbs⟩
    simp only [List.length_append, String.length_toList]
    rw [hstop, Token.stop, hstart]
    omega

end Token

namespace Lexing
open Token

/-- What follows a text can change its last token alone, and this only if it reaches to the end. -/
theorem ofChars_append_last (H : Spans pos (us ++ [t]) as) (hstop : t.stop = pos + as.length)
    (bs : List Char) :
    ofChars pos (as ++ bs) = after us (ofChars t.start (t.text.toList ++ bs)) := by
  induction us generalizing pos as with
  | nil =>
    cases H with
    | @token g _ _ cs _ hg hstart ht hend H =>
    have hcs : cs = [] := by
      rw [Token.stop, hstart] at hstop
      simp only [List.length_append, String.length_toList] at hstop
      exact List.eq_nil_of_length_eq_zero (by omega)
    rw [hcs, List.append_nil, List.append_assoc, ofChars_gap hg, ← hstart]
    rfl
  | cons u us ih =>
    cases H with
    | @token g _ _ cs _ hg hstart hu hend H =>
    have hstop' : t.stop = u.stop + cs.length := by
      rw [hstop, Token.stop, hstart]
      simp only [List.length_append, String.length_toList]
      omega
    -- something stands between the two tokens or is the last one, so `u` ends where it did
    have hne : cs ≠ [] := by
      rintro rfl
      have := H.le_start t (by simp)
      have := start_lt_stop (H.segments.matches_of_mem t (by simp))
      simp only [List.length_nil] at hstop'
      omega
    have hend : u.kind.EndsBefore (cs ++ bs) := by
      obtain ⟨c, cs, rfl⟩ := List.exists_cons_of_ne_nil hne
      exact hend
    rw [List.append_assoc, List.append_assoc, ofChars_gap hg, ofChars_text hu hend, ← hstart,
      String.length_toList, ← Token.stop, ih H hstop', after_after]
    rfl

/-- If no token and no foreign character stands across the place between two texts, then they are
lexed one after the other. -/
theorem exists_append_of_cut {pos : Nat} {as bs : List Char}
    (htokens : ∀ t ∈ (ofChars pos (as ++ bs)).tokens,
      ¬ (t.start < pos + as.length ∧ pos + as.length < t.stop))
    (hforeign : ∀ c ∈ (ofChars pos (as ++ bs)).foreign?, pos + as.length ≤ c.position) :
    ∃ ts, ofChars pos as = ⟨ts, none⟩ ∧
      ofChars pos (as ++ bs) = after ts (ofChars (pos + as.length) bs) := by
  generalize hcs : as ++ bs = cs at htokens hforeign ⊢
  induction cs using text_induction generalizing pos as with
  | nil =>
    obtain ⟨rfl, rfl⟩ := List.append_eq_nil_iff.mp hcs
    exact ⟨[], ofChars_nil pos, rfl⟩
  | ignored c cs hc ih =>
    obtain ⟨rfl, rfl⟩ | ⟨as, rfl, rfl⟩ := List.append_eq_cons_iff.mp hcs
    · exact ⟨[], ofChars_nil pos, rfl⟩
    · have hpos : pos + (c :: as).length = pos + 1 + as.length := by
        rw [List.length_cons, Nat.add_right_comm, Nat.add_assoc]
      rw [ofChars_cons_ignored hc, hpos] at htokens hforeign
      obtain ⟨ts, has, hcs⟩ := ih rfl htokens hforeign
      refine ⟨ts, ?_, ?_⟩
      · rw [ofChars_cons_ignored hc, has]
      · rw [ofChars_cons_ignored hc, hpos, hcs]
  | foreign c cs hc hk =>
    obtain ⟨rfl, rfl⟩ | ⟨as, rfl, rfl⟩ := List.append_eq_cons_iff.mp hcs
    · exact ⟨[], ofChars_nil pos, rfl⟩
    · rw [ofChars_cons_foreign hc hk] at hforeign
      have := hforeign ⟨c, pos⟩ rfl
      simp only [List.length_cons] at this
      omega
  | token k w cs hw hend ih =>
    by_cases hnil : as = []
    · subst hnil
      exact ⟨[], ofChars_nil pos, by rw [← hcs]; rfl⟩
    rw [ofChars_token hw hend] at htokens hforeign
    obtain ⟨htoken, htokens⟩ := List.forall_mem_cons.mp htokens
    -- the cut is not inside the token, so it is at its end or after it
    obtain ⟨as', rfl, rfl⟩ : ∃ as', as = w ++ as' ∧ cs = as' ++ bs := by
      obtain ⟨w', rfl, rfl⟩ | h := List.append_eq_append_iff.mp hcs
      · have hstop : (⟨k, String.ofList (as ++ w'), pos⟩ : Token).stop =
            pos + (as.length + w'.length) := by simp [Token.stop]
        have hlength := List.length_pos_iff.mpr hnil
        rw [hstop] at htoken
        obtain rfl := List.eq_nil_of_length_eq_zero (l := w') (by simp only at htoken; omega)
        exact ⟨[], by simp, rfl⟩
      · exact h
    have hpos : pos + (w ++ as').length = pos + w.length + as'.length := by
      rw [List.length_append, Nat.add_assoc]
    rw [hpos] at htokens hforeign
    obtain ⟨ts, has, hcs⟩ := ih rfl htokens hforeign
    refine ⟨⟨k, String.ofList w, pos⟩ :: ts, ?_, ?_⟩
    · rw [ofChars_token hw hend.of_append, has]
      rfl
    · rw [ofChars_token hw hend, hpos, hcs, after_after]
      rfl

end Lexing

/-! ### Pairs that need a gap -/

namespace Token

/-- Right after `t`, the first character of `u` would belong to `t`. -/
def Fuses (t u : Token) : Prop :=
  t.kind = .operator ∧ u.kind = .operator ∨ t.kind = .number ∧ u.kind = .number ∨
    t.kind = .identifier ∧ u.kind = .identifier ∨
    t.kind = .identifier ∧ u.kind = .number ∧ u.text.toList.head?.any fun c => c.toNat < 0x80

instance : Decidable (Fuses t u) := inferInstanceAs (Decidable (_ ∨ _ ∨ _ ∨ _ ∧ _ ∧ _))

theorem continues_iff_fuses {t u : Token} {c : Char} {w : List Char}
    (hu : u.kind.Matches u.text.toList) (htext : u.text.toList = c :: w) :
    t.kind.continues c ↔ t.Fuses u := by
  have hc : u.kind.starts c := (Kind.matches_cons.mp (htext ▸ hu)).1
  have hstarts (k : Kind) : k.starts c ↔ u.kind = k :=
    ⟨Kind.starts_unique hc, fun hk => hk ▸ hc⟩
  have hop : isOperatorChar c ↔ u.kind = .operator := hstarts .operator
  have hname : isNameStart c ↔ u.kind = .identifier := hstarts .identifier
  have hdigit : Text.isDigit c ↔ u.kind = .number := hstarts .number
  have hnameChar : isNameChar c ↔ u.kind = .identifier ∨ u.kind = .number ∧ c.toNat < 0x80 := by
    rw [isNameChar_iff, hname, ← hdigit]
    refine or_congr_right ⟨fun h => ?_, fun ⟨hd, hascii⟩ => (Text.isDigit_ascii hascii).mp hd⟩
    have hascii : c.toNat < 0x80 := by omega
    exact ⟨(Text.isDigit_ascii hascii).mpr h, hascii⟩
  rw [Fuses, htext]
  cases t.kind <;> simp [Kind.continues, hop, hdigit, hnameChar]

end Token

namespace Lexing
open Token

/-- Texts that are lexed one after the other are so with a gap between them. -/
theorem ofChars_insert_gap (hw : IsGap w) (has : ofChars pos as = ⟨ts, none⟩)
    (hcut : ofChars pos (as ++ bs) = after ts (ofChars (pos + as.length) bs)) :
    ofChars pos (as ++ (w ++ bs)) = after ts (ofChars (pos + as.length + w.length) bs) := by
  cases w with
  | nil => exact hcut
  | cons c w =>
    have hc : isIgnored c := hw c List.mem_cons_self
    have hknown : ∀ d ∈ as, ¬ IsForeign d := foreign?_eq_none_iff.mp (congrArg foreign? has)
    have hends (k : Kind) : k.EndsBefore (c :: w ++ bs) := Kind.endsBefore_ignored hc
    rw [ofChars_append hknown hends, has, ofChars_gap hw]

theorem ofText_insert_gap {text w : String} {p : Nat} (hp : p ≤ text.length) (hw : IsGap w.toList)
    (htokens : ∀ t ∈ (ofText text).tokens, ¬ (t.start < p ∧ p < t.stop))
    (hforeign : ∀ c ∈ (ofText text).foreign?, p ≤ c.position) :
    ofText (Text.firstChars p text ++ w ++ Text.dropChars p text) =
      (ofText text).shift p w.length := by
  have htext : text.toList = text.toList.take p ++ text.toList.drop p :=
    (List.take_append_drop p _).symm
  have hlist : (Text.firstChars p text ++ w ++ Text.dropChars p text).toList =
      text.toList.take p ++ (w.toList ++ text.toList.drop p) := by simp
  have hlength : 0 + (text.toList.take p).length = p := by
    rw [Nat.zero_add, List.length_take, String.length_toList, Nat.min_eq_left hp]
  rw [ofText] at htokens hforeign
  rw [ofText, ofText, hlist]
  generalize text.toList.take p = as, text.toList.drop p = bs at *
  rw [htext] at htokens hforeign ⊢
  rw [← hlength] at htokens hforeign
  obtain ⟨ts, has, hcut⟩ := exists_append_of_cut htokens hforeign
  have hbefore : ts.map (Token.shift p w.length) = ts :=
    (spans_iff.mpr has).map_shift (Nat.le_of_eq hlength) w.length
  rw [ofChars_insert_gap hw has hcut, hcut, hlength, String.length_toList,
    ofChars_shift (Nat.le_refl p), shift_after, hbefore]

/-- Two texts put together keep their tokens if and only if the last one of the first text and the
first one of the second text do not fuse. -/
theorem unplaced_append_iff (H : Spans pos (us ++ [t]) as) (hstop : t.stop = pos + as.length)
    (hu : u.kind.Matches u.text.toList)
    (hrest : ofChars u.start (u.text.toList ++ ds) = ⟨u :: vs, none⟩) :
    (ofChars pos (as ++ (u.text.toList ++ ds))).tokens.map Token.unplaced =
      (us ++ t :: u :: vs).map Token.unplaced ↔ ¬ t.Fuses u := by
  have ht := H.segments.matches_of_mem t (by simp)
  obtain ⟨c, w, htext⟩ := List.exists_cons_of_ne_nil hu.ne_nil
  rw [← continues_iff_fuses hu htext, Bool.not_eq_true, ofChars_append_last H hstop]
  constructor
  · intro h
    rw [ofChars_token_append ht] at h
    simp only [after, List.map_append, List.append_cancel_left_eq, List.map_cons,
      List.cons_append, List.nil_append] at h
    -- the last token of the first text has kept its text, so it has not gone on
    obtain ⟨hlast, -⟩ := List.cons.inj h
    have hsame := congrArg (fun t => t.text.toList) hlast
    simp only [Token.unplaced, String.toList_ofList, List.append_right_eq_self] at hsame
    rw [htext, List.cons_append, List.takeWhile_cons] at hsame
    rw [Bool.eq_false_iff]
    intro hc
    rw [if_pos hc] at hsame
    cases hsame
  · intro hc
    have hend : t.kind.EndsBefore (u.text.toList ++ ds) := by
      rw [htext]
      exact Kind.endsBefore_cons.mpr hc
    have hmoved := unplaced_ofChars (t.start + t.text.toList.length) u.start (u.text.toList ++ ds)
    have htokens := congrArg Lexing.tokens hmoved
    rw [hrest] at htokens
    change _ = (u :: vs).map Token.unplaced at htokens
    rw [ofChars_text ht hend, after_after, List.map_append, List.map_cons, ← htokens]
    simp [after, Lexing.unplaced]

theorem unplaced_delete_gap_iff {text : String} (hforeign : (ofText text).foreign? = none)
    (htokens : (ofText text).tokens = us ++ t :: u :: vs) :
    let L' := ofText (Text.firstChars t.stop text ++ Text.dropChars u.start text)
    L'.foreign? = none ∧
      (L'.tokens.map Token.unplaced = (ofText text).tokens.map Token.unplaced ↔ ¬ t.Fuses u) := by
  have H : Spans 0 (us ++ t :: u :: vs) text.toList := by
    rw [spans_iff, ← htokens, ← hforeign]
    rfl
  obtain ⟨as, bs, htext, hstop, has, hbs⟩ := H.of_append
  cases hbs with
  | @token g _ _ ds _ hg hstart hu hend H' =>
  have hlist : (Text.firstChars t.stop text ++ Text.dropChars u.start text).toList =
      as ++ (u.text.toList ++ ds) := by
    have hfirst : text.toList.take t.stop = as := by
      rw [htext, hstop, Nat.zero_add, List.take_left]
    have hrest : text.toList.drop u.start = u.text.toList ++ ds := by
      rw [htext, hstart, hstop, Nat.zero_add, ← List.drop_drop, List.drop_left, List.append_assoc,
        List.drop_left]
    rw [String.toList_append, Text.toList_firstChars, Text.toList_dropChars, hfirst, hrest]
  have hrest : ofChars u.start (u.text.toList ++ ds) = ⟨u :: vs, none⟩ :=
    spans_iff.mp (.token .nil rfl hu hend H')
  intro L'
  have hL' : L' = ofChars 0 (as ++ (u.text.toList ++ ds)) := by rw [← hlist]; rfl
  rw [hL', htokens]
  refine ⟨?_, unplaced_append_iff has hstop hu hrest⟩
  have hknown := foreign?_eq_none_iff.mp hforeign
  refine foreign?_eq_none_iff.mpr fun c hc => hknown c ?_
  rw [htext, List.append_assoc g, List.mem_append, List.mem_append]
  exact (List.mem_append.mp hc).imp_right .inr

/-- A gap between tokens moves what follows it and changes nothing else. Between two tokens it is
needed only where they would fuse. -/
theorem gap_moves_and_separates (text : String) :
    let L := ofText text
    (∀ p w, p ≤ text.length → IsGap w.toList → (∀ t ∈ L.tokens, ¬ (t.start < p ∧ p < t.stop)) →
      (∀ c ∈ L.foreign?, p ≤ c.position) →
      ofText (Text.firstChars p text ++ w ++ Text.dropChars p text) = L.shift p w.length) ∧
    ∀ us t u vs, L.foreign? = none → L.tokens = us ++ t :: u :: vs →
      let L' := ofText (Text.firstChars t.stop text ++ Text.dropChars u.start text)
      L'.foreign? = none ∧
        (L'.tokens.map Token.unplaced = L.tokens.map Token.unplaced ↔ ¬ t.Fuses u) := by
  intro L
  exact ⟨fun p w => ofText_insert_gap, fun us t u vs => unplaced_delete_gap_iff⟩

theorem gap_moves_and_separates_digits :
    let t : Token := ⟨.identifier, "x", 0⟩
    let u : Token := ⟨.number, "٣", 2⟩
    let v : Token := ⟨.number, "4", 4⟩
    ofText "x ٣ 4@" = ⟨[t, u, v], some ⟨'@', 5⟩⟩ ∧ ofText "x ٣ 4" = ⟨[t, u, v], none⟩ ∧
      ofText "x \n\t٣ 4@" = ⟨[t, { u with start := 4 }, { v with start := 6 }], some ⟨'@', 7⟩⟩ ∧
      (ofText "x٣ 4").tokens.map Token.unplaced = [t, u, v].map Token.unplaced ∧
      (ofText "x ٣4").tokens.map Token.unplaced ≠ [t, u, v].map Token.unplaced := by
  intro t u v
  have hforeign : ofText "x ٣ 4@" = ⟨[t, u, v], some ⟨'@', 5⟩⟩ := by decide +kernel
  have hlexing : ofText "x ٣ 4" = ⟨[t, u, v], none⟩ := by decide +kernel
  have hnone : (ofText "x ٣ 4").foreign? = none := congrArg foreign? hlexing
  have htokens : (ofText "x ٣ 4").tokens = [t, u, v] := congrArg tokens hlexing
  refine ⟨hforeign, hlexing, ?_, ?_, ?_⟩
  · have hgap : IsGap "\n\t".toList := List.all_eq_true.mp (by decide)
    have htext : Text.firstChars 2 "x ٣ 4@" ++ "\n\t" ++ Text.dropChars 2 "x ٣ 4@" =
        "x \n\t٣ 4@" := by decide
    have h := (gap_moves_and_separates "x ٣ 4@").1 2 "\n\t" (by decide) hgap
    rw [hforeign, htext] at h
    exact h (by decide) (fun c hc => by cases hc; decide)
  · have htext : Text.firstChars t.stop "x ٣ 4" ++ Text.dropChars u.start "x ٣ 4" = "x٣ 4" := by
      decide
    have h := ((gap_moves_and_separates "x ٣ 4").2 [] t u [v] hnone htokens).2.mpr
    rw [htext, htokens] at h
    exact h (by decide)
  · have htext : Text.firstChars u.stop "x ٣ 4" ++ Text.dropChars v.start "x ٣ 4" = "x ٣4" := by
      decide
    have h := ((gap_moves_and_separates "x ٣ 4").2 [t] u v [] hnone htokens).2.mp
    rw [htext, htokens] at h
    exact fun heq => h heq (.inr (.inl ⟨rfl, rfl⟩))

end Lexing

end Formulary
