import Formulary.Proofs.Lookahead
import Formulary.Proofs.Written

/-!
# The only segmentation

A text without foreign characters has exactly one segmentation by maximal munch, said of positions
in the text, and it is the list of its tokens (`Lexing.segmentation_iff`). In between stands the
account piece by piece, `Token.Spans`: it is what lexing does (`Lexing.spans_iff`), and it says the
same as the account by positions (`Token.spans_drop_iff`). Any other text is lexed up to its first
foreign character (`Lexing.scan_fails_at_first_foreign`).
-/

namespace Formulary

namespace Text

theorem mem_drop_iff {cs : List Char} {c : Char} {i : Nat} :
    c ∈ cs.drop i ↔ ∃ k, i ≤ k ∧ cs[k]? = some c := by
  rw [List.mem_iff_getElem?]
  simp only [List.getElem?_drop]
  constructor
  · rintro ⟨k, hk⟩
    exact ⟨i + k, Nat.le_add_right i k, hk⟩
  · rintro ⟨k, hik, hk⟩
    exact ⟨k - i, by rwa [Nat.add_sub_cancel' hik]⟩

theorem mem_extract_iff {cs : List Char} {c : Char} {i j : Nat} :
    c ∈ cs.extract i j ↔ ∃ k, i ≤ k ∧ k < j ∧ cs[k]? = some c := by
  rw [List.extract_eq_take_drop, List.mem_iff_getElem?]
  simp only [List.getElem?_take, List.getElem?_drop, Option.ite_none_right_eq_some]
  constructor
  · rintro ⟨k, hkj, hk⟩
    exact ⟨i + k, Nat.le_add_right i k, by omega, hk⟩
  · rintro ⟨k, hik, hkj, hk⟩
    exact ⟨k - i, by omega, by rwa [Nat.add_sub_cancel' hik]⟩

theorem extract_append_drop {cs : List Char} {i j : Nat} (h : i ≤ j) :
    cs.extract i j ++ cs.drop j = cs.drop i := by
  have hj : cs.drop j = (cs.drop i).drop (j - i) := by
    rw [List.drop_drop, Nat.add_sub_cancel' h]
  rw [hj, List.extract_eq_take_drop, List.take_append_drop]

end Text

namespace Token
open Text

/-- The tokens are all that the text `cs` has from position `pos` on, each of them as long as its
kind allows. -/
structure Segmentation (cs : List Char) (pos : Nat) (ts : List Token) : Prop where
  le_start : ∀ t ∈ ts, pos ≤ t.start
  ordered : ts.Pairwise fun t u => t.stop ≤ u.start
  nonempty : ∀ t ∈ ts, t.start < t.stop
  /-- The text of a token is what stands at its place. -/
  extract : ∀ t ∈ ts, cs.extract t.start t.stop = t.text.toList
  /-- Only gaps are left out. -/
  ignored : ∀ i c, pos ≤ i → cs[i]? = some c → (∀ t ∈ ts, ¬ (t.start ≤ i ∧ i < t.stop)) →
    isIgnored c
  kinds : ∀ t ∈ ts, t.kind.Matches t.text.toList
  maximal : ∀ t ∈ ts, ∀ c, cs[t.stop]? = some c → t.kind.continues c = false

theorem start_lt_stop {t : Token} (h : t.kind.Matches t.text.toList) : t.start < t.stop := by
  have hlength := List.length_pos_iff.mpr h.ne_nil
  rw [String.length_toList] at hlength
  exact Nat.lt_add_of_pos_right hlength

section
variable {cs : List Char} {pos : Nat} {t : Token} {ts : List Token}

theorem segmentation_nil : Segmentation cs pos [] ↔ IsGap (cs.drop pos) := by
  constructor
  · intro H c hc
    obtain ⟨i, hi, hc⟩ := mem_drop_iff.mp hc
    exact H.ignored i c hi hc nofun
  · intro hg
    have hignored (i c) (hi : pos ≤ i) (hc : cs[i]? = some c) : isIgnored c :=
      hg c (mem_drop_iff.mpr ⟨i, hi, hc⟩)
    exact ⟨nofun, .nil, nofun, nofun, fun i c hi hc _ => hignored i c hi hc, nofun, nofun⟩

/-- A token may be put before a segmentation of what follows it. -/
theorem Segmentation.cons (hstart : pos ≤ t.start) (hg : IsGap (cs.extract pos t.start))
    (ht : t.kind.Matches t.text.toList) (htext : cs.extract t.start t.stop = t.text.toList)
    (hend : t.kind.EndsBefore (cs.drop t.stop)) (H : Segmentation cs t.stop ts) :
    Segmentation cs pos (t :: ts) where
  le_start := by
    refine List.forall_mem_cons.mpr ⟨hstart, fun u hu => ?_⟩
    have := start_lt_stop ht
    have := H.le_start u hu
    omega
  ordered := List.pairwise_cons.mpr ⟨H.le_start, H.ordered⟩
  nonempty := List.forall_mem_cons.mpr ⟨start_lt_stop ht, H.nonempty⟩
  extract := List.forall_mem_cons.mpr ⟨htext, H.extract⟩
  ignored i c hi hc hts := by
    obtain ⟨hti, hts⟩ := List.forall_mem_cons.mp hts
    by_cases hstop : t.stop ≤ i
    · exact H.ignored i c hstop hc hts
    · exact hg c (mem_extract_iff.mpr ⟨i, hi, by omega, hc⟩)
  kinds := List.forall_mem_cons.mpr ⟨ht, H.kinds⟩
  maximal := by
    refine List.forall_mem_cons.mpr ⟨fun c hc => hend c ?_, H.maximal⟩
    rwa [List.head?_drop]

namespace Segmentation

theorem tail (H : Segmentation cs pos (t :: ts)) : Segmentation cs t.stop ts := by
  obtain ⟨hlater, hordered⟩ := List.pairwise_cons.mp H.ordered
  have htail {u} (hu : u ∈ ts) : u ∈ t :: ts := List.mem_cons_of_mem t hu
  refine ⟨hlater, hordered, fun u hu => H.nonempty u (htail hu),
    fun u hu => H.extract u (htail hu), fun i c hi hc hts => ?_,
    fun u hu => H.kinds u (htail hu), fun u hu => H.maximal u (htail hu)⟩
  have := H.le_start t List.mem_cons_self
  have := H.nonempty t List.mem_cons_self
  exact H.ignored i c (by omega) hc (List.forall_mem_cons.mpr ⟨by omega, hts⟩)

theorem gap (H : Segmentation cs pos (t :: ts)) : IsGap (cs.extract pos t.start) := by
  intro c hc
  obtain ⟨i, hi, hit, hc⟩ := mem_extract_iff.mp hc
  refine H.ignored i c hi hc (List.forall_mem_cons.mpr ⟨by omega, fun u hu => ?_⟩)
  have := H.nonempty t List.mem_cons_self
  have := H.tail.le_start u hu
  omega

theorem endsBefore (H : Segmentation cs pos (t :: ts)) : t.kind.EndsBefore (cs.drop t.stop) := by
  intro c hc
  rw [List.head?_drop] at hc
  exact H.maximal t List.mem_cons_self c hc

end Segmentation

/-- The account piece by piece and the one by positions say the same. -/
theorem spans_drop_iff : Spans pos ts (cs.drop pos) ↔ Segmentation cs pos ts := by
  constructor
  · intro H
    induction ts generalizing pos with
    | nil =>
      cases H with
      | gap hg => exact segmentation_nil.mpr hg
    | cons t ts ih =>
      generalize hcs : cs.drop pos = ds at H
      cases H with
      | @token g _ _ ds _ hg hstart ht hend H =>
      have hle : pos ≤ t.start := by omega
      have hgap : cs.extract pos t.start = g := by
        rw [List.extract_eq_take_drop, hcs, hstart, Nat.add_sub_cancel_left, List.append_assoc,
          List.take_left]
      have hdrop : cs.drop t.start = t.text.toList ++ ds := by
        rw [hstart, ← List.drop_drop, hcs, List.append_assoc, List.drop_left]
      have hlength : t.stop - t.start = t.text.toList.length := by
        rw [Token.stop, Nat.add_sub_cancel_left, String.length_toList]
      have htext : cs.extract t.start t.stop = t.text.toList := by
        rw [List.extract_eq_take_drop, hdrop, hlength, List.take_left]
      have hrest : cs.drop t.stop = ds := by
        rw [Token.stop, ← String.length_toList, ← List.drop_drop, hdrop, List.drop_left]
      rw [← hrest] at hend H
      exact .cons hle (hgap ▸ hg) ht htext hend (ih H)
  · intro H
    induction ts generalizing pos with
    | nil => exact .gap (segmentation_nil.mp H)
    | cons t ts ih =>
      have hle := H.le_start t List.mem_cons_self
      have hlt := H.nonempty t List.mem_cons_self
      have htext := H.extract t List.mem_cons_self
      have hlength : (cs.extract t.start t.stop).length = t.stop - t.start := by
        rw [htext, String.length_toList, Token.stop, Nat.add_sub_cancel_left]
      have hstart : t.start = pos + (cs.extract pos t.start).length := by
        simp only [List.extract_eq_take_drop, List.length_take, List.length_drop] at hlength ⊢
        omega
      rw [← extract_append_drop hle, ← extract_append_drop (Nat.le_of_lt hlt), htext,
        ← List.append_assoc]
      exact .token H.gap hstart (H.kinds t List.mem_cons_self) H.endsBefore (ih H.tail)

end

end Token

namespace Lexing
open Token

/-- A text is lexed to the end if and only if its tokens make it up, each as long as its kind
allows. -/
theorem spans_iff {cs : List Char} {pos : Nat} {ts : List Token} :
    Spans pos ts cs ↔ ofChars pos cs = ⟨ts, none⟩ := by
  constructor
  · intro H
    induction H with
    | @gap g pos hg => rw [← List.append_nil g, ofChars_gap hg, ofChars_nil]
    | @token g pos ts cs t hg hstart ht hend _ ih =>
      rw [List.append_assoc, ofChars_gap hg, ofChars_text ht hend, ← hstart, String.length_toList,
        ← Token.stop, ih]
      rfl
  · intro h
    have H := spans (congrArg foreign? h)
    rwa [h] at H

/-- A text has a segmentation by maximal munch if and only if it has no foreign characters, and it
has no other than its tokens. -/
theorem segmentation_iff (text : String) :
    (∀ ts, Segmentation text.toList 0 ts ↔ ofText text = ⟨ts, none⟩) ∧
      ((∃ ts, Segmentation text.toList 0 ts) ↔ ∀ c ∈ text.toList, ¬ IsForeign c) := by
  have hiff (ts : List Token) : Segmentation text.toList 0 ts ↔ ofText text = ⟨ts, none⟩ := by
    rw [← spans_drop_iff, List.drop_zero, spans_iff, ofText]
  have hforeign : (ofText text).foreign? = none ↔ ∀ c ∈ text.toList, ¬ IsForeign c :=
    foreign?_eq_none_iff
  refine ⟨hiff, ?_⟩
  rw [← hforeign]
  constructor
  · rintro ⟨ts, H⟩
    exact congrArg foreign? ((hiff ts).mp H)
  · intro h
    exact ⟨(ofText text).tokens, (hiff _).mpr (by rw [← h])⟩

theorem segmentation_iff_scripts :
    Segmentation "x1٣٤<=(y".toList 0 [⟨.identifier, "x1", 0⟩, ⟨.number, "٣٤", 2⟩,
      ⟨.operator, "<=", 4⟩, ⟨.leftParen, "(", 6⟩, ⟨.identifier, "y", 7⟩] :=
  ((segmentation_iff "x1٣٤<=(y").1 _).mpr (by decide +kernel)

end Lexing

/-! ### Where there is none -/

namespace Token

/-- The characters that gaps and tokens consist of, class by class. -/
def IsLexical (c : Char) : Prop :=
  isIgnored c ∨ c = '(' ∨ c = ')' ∨ isOperatorChar c ∨ isNameStart c ∨ Text.isDigit c

theorem isForeign_iff_not_isLexical {c : Char} : IsForeign c ↔ ¬ IsLexical c := by
  rw [isForeign_iff, IsLexical, Kind.ofFirst?]
  grind

end Token

namespace Lexing
open Token

theorem value_scan (text : String) (l : Logger) : (scan text).value l = ofText text := by
  rw [scan]
  dsimp only
  split <;> rfl

theorem foreign?_eq_some_iff_getElem? {cs : List Char} {c : Char} {p : Nat} :
    (ofChars 0 cs).foreign? = some ⟨c, p⟩ ↔
      cs[p]? = some c ∧ IsForeign c ∧ ∀ d ∈ cs.take p, ¬ IsForeign d := by
  rw [foreign?_eq_some_iff]
  constructor
  · rintro ⟨as, bs, rfl, rfl, hc, has⟩
    simp only [Nat.zero_add, List.take_left]
    exact ⟨by simp, hc, has⟩
  · rintro ⟨hp, hc, hbefore⟩
    obtain ⟨hlt, rfl⟩ := List.getElem?_eq_some_iff.mp hp
    refine ⟨cs.take p, cs.drop (p + 1), ?_, ?_, hc, hbefore⟩
    · rw [List.getElem_cons_drop, List.take_append_drop]
    · rw [List.length_take, Nat.min_eq_left (Nat.le_of_lt hlt), Nat.zero_add]

theorem ofText_firstChars_position {text : String} {c : Char} {p : Nat}
    (h : (ofText text).foreign? = some ⟨c, p⟩) :
    ofText (Text.firstChars p text) = ⟨(ofText text).tokens, none⟩ := by
  obtain ⟨as, bs, htext, hp, hc, has⟩ := foreign?_eq_some_iff.mp h
  have hfirst : (Text.firstChars p text).toList = as := by
    rw [Text.toList_firstChars, htext, hp, Nat.zero_add, List.take_left]
  rw [ofText, ofText, hfirst, htext, ofChars_foreign has hc, ← foreign?_eq_none_iff.mpr has]

/-- Tokenizing fails if and only if the text has a character of no class, and it does so at the
first one, whose character and position are told. The tokens up to there are all the tokens of the
text up to there. -/
theorem scan_fails_at_first_foreign (text : String) (l : Logger) :
    let L := (scan text).value l
    ((∃ f, L.foreign? = some f) ↔ ∃ c ∈ text.toList, ¬ IsLexical c) ∧
      ∀ c p, (L.foreign? = some ⟨c, p⟩ ↔ text.toList[p]? = some c ∧ ¬ IsLexical c ∧
          ∀ d ∈ text.toList.take p, IsLexical d) ∧
        (L.foreign? = some ⟨c, p⟩ → ofText (Text.firstChars p text) = ⟨L.tokens, none⟩) ∧
        ForeignChar.message ⟨c, p⟩ = "Illegal character '" ++ c.toString ++
          "' encountered at position " ++ toString p := by
  intro L
  have hL : L = ofText text := value_scan text l
  rw [hL]
  refine ⟨⟨?_, ?_⟩, fun c p => ⟨?_, ofText_firstChars_position, rfl⟩⟩
  · rintro ⟨⟨c, p⟩, h⟩
    obtain ⟨hp, hc, -⟩ := foreign?_eq_some_iff_getElem?.mp h
    exact ⟨c, List.mem_of_getElem? hp, isForeign_iff_not_isLexical.mp hc⟩
  · rintro ⟨c, hmem, hc⟩
    cases h : (ofText text).foreign? with
    | none => exact absurd (isForeign_iff_not_isLexical.mpr hc) (foreign?_eq_none_iff.mp h c hmem)
    | some f => exact ⟨f, rfl⟩
  · simp only [ofText, foreign?_eq_some_iff_getElem?, isForeign_iff_not_isLexical,
      Classical.not_not]

theorem scan_fails_at_first_foreign_blank :
    let L := (scan "(x1 \u00a0@").value .initial
    L.foreign? = some ⟨'\u00a0', 4⟩ ∧ ¬ IsLexical '\u00a0' ∧ ofText "(x1 " = ⟨L.tokens, none⟩ := by
  intro L
  have hL : L = ofText "(x1 \u00a0@" := value_scan _ _
  have h : L.foreign? = some ⟨'\u00a0', 4⟩ := by
    rw [hL]
    decide +kernel
  have hfirst : Text.firstChars 4 "(x1 \u00a0@" = "(x1 " := by decide
  obtain ⟨hiff, htokens, -⟩ := (scan_fails_at_first_foreign "(x1 \u00a0@" .initial).2 '\u00a0' 4
  exact ⟨h, (hiff.mp h).2.1, hfirst ▸ htokens h⟩

end Lexing

end Formulary
