import Formulary.Proofs.Draft
import Formulary.Text.Utf8
import Mathlib.Tactic.SplitIfs

/-!
# UTF-8 decodes what it encodes, and nothing else

The decoder accepts exactly the bytes of texts, and gives these texts back
(`Text.Utf8.decode_eq_ok_iff`). A sequence under way may still become some code points
(`Text.Utf8.Sequence.Fits`). A first byte leaves those that it begins, and each further byte fixes
six more bits.
-/

namespace Formulary.Text.Utf8

/-- The code point `v` without its last `k` groups of six bits. -/
def leading : (k v : Nat) → Nat
  | 0, v => v
  | k + 1, v => leading k v / 64

/-- The last `k` bytes for the code point `v`, one for each group of six bits. -/
def continuation : (k v : Nat) → List UInt8
  | 0, _ => []
  | k + 1, v => UInt8.ofNat (0x80 + leading k v % 64) :: continuation k v

theorem length_continuation {k v : Nat} : (continuation k v).length = k := by
  induction k with
  | zero => rfl
  | succ k ih => rw [continuation, List.length_cons, ih]

namespace Sequence
variable {s : Sequence} {b : UInt8} {v : Nat}

/-- The sequence may become the code point `v`. -/
structure Fits (s : Sequence) (v : Nat) : Prop where
  bits : leading s.owed v = s.bits
  low : s.low ≤ 0x80 + leading (s.owed - 1) v % 64
  high : 0x80 + leading (s.owed - 1) v % 64 ≤ s.high

/-- A byte is owed, and it has to be a continuation byte. -/
structure Open (s : Sequence) : Prop where
  owed : s.owed ≠ 0
  low : 0x80 ≤ s.low
  high : s.high ≤ 0xBF

/-! ### First bytes -/

/-- The sequence that a first byte begins, by the number of bytes that it still owes. -/
theorem start?_cases (h : start? b = some s) : let n := b.toNat
    (s.owed = 1 ∧ s.bits = n - 0xC0 ∧ 0xC2 ≤ n ∧ n ≤ 0xDF ∧ s.low = 0x80 ∧ s.high = 0xBF) ∨
    (s.owed = 2 ∧ s.bits = n - 0xE0 ∧ 0xE0 ≤ n ∧ n ≤ 0xEF ∧
      (n = 0xE0 ∧ s.low = 0xA0 ∨ n ≠ 0xE0 ∧ s.low = 0x80) ∧
      (n = 0xED ∧ s.high = 0x9F ∨ n ≠ 0xED ∧ s.high = 0xBF)) ∨
    (s.owed = 3 ∧ s.bits = n - 0xF0 ∧ 0xF0 ≤ n ∧ n ≤ 0xF4 ∧
      (n = 0xF0 ∧ s.low = 0x90 ∨ n ≠ 0xF0 ∧ s.low = 0x80) ∧
      (n = 0xF4 ∧ s.high = 0x8F ∨ n ≠ 0xF4 ∧ s.high = 0xBF)) := by
  unfold start? at h
  dsimp only at h ⊢
  split_ifs at h <;> cases h <;> dsimp only <;> omega

theorem exists_start? (h : 0xC2 ≤ b.toNat) (h' : b.toNat ≤ 0xF4) : ∃ s, start? b = some s := by
  unfold start?
  dsimp only
  split_ifs
  all_goals first | exact ⟨_, rfl⟩ | omega

theorem open_of_start? (h : start? b = some s) : s.Open := by
  constructor <;> rcases start?_cases h with H | H | H <;> omega

/-- The code points that a first byte leaves are characters. -/
theorem isValidChar_of_fits (h : start? b = some s) (hv : s.Fits v) : v.isValidChar := by
  obtain ⟨hbits, hlow, hhigh⟩ := hv
  rcases start?_cases h with ⟨ho, H⟩ | ⟨ho, H⟩ | ⟨ho, H⟩ <;>
    simp only [ho, Nat.reduceSub, leading] at hbits hlow hhigh <;>
    unfold Nat.isValidChar <;> omega

theorem toNat_ofNat_of_fits (h : start? b = some s) (hv : s.Fits v) : (Char.ofNat v).toNat = v := by
  rw [Char.ofNat, dif_pos (isValidChar_of_fits h hv)]
  rfl

/-- What a first byte and the bytes that it asks for encode. -/
theorem utf8EncodeChar_of_fits {c : Char} (h : start? b = some s) (hv : s.Fits c.toNat) :
    String.utf8EncodeChar c = b :: continuation s.owed c.toNat := by
  obtain ⟨hbits, hlow, hhigh⟩ := hv
  have hb (n : Nat) (h : n = b.toNat) : UInt8.ofNat n = b := by rw [h, UInt8.ofNat_toNat]
  have hc : c.val.toNat = c.toNat := rfl
  simp only [String.utf8EncodeChar, hc]
  rcases start?_cases h with ⟨ho, H⟩ | ⟨ho, H⟩ | ⟨ho, H⟩ <;>
    simp only [ho, Nat.reduceSub, leading] at hbits hlow hhigh <;>
    simp only [ho, continuation, leading]
  · rw [if_neg (by omega), if_pos (by omega), hb _ (by omega), Nat.add_comm]
  · rw [if_neg (by omega), if_neg (by omega), if_pos (by omega), hb _ (by omega),
      Nat.add_comm, Nat.add_comm (c.toNat % 64)]
  · rw [if_neg (by omega), if_neg (by omega), if_neg (by omega), hb _ (by omega),
      Nat.div_div_eq_div_mul, Nat.add_comm, Nat.add_comm (c.toNat / 64 % 64),
      Nat.add_comm (c.toNat % 64)]

/-- Every code point beyond ASCII has a first byte. -/
theorem exists_fits (h : 0x80 ≤ v) (hv : v.isValidChar) :
    ∃ b s, 0x80 ≤ b.toNat ∧ start? b = some s ∧ s.Fits v := by
  unfold Nat.isValidChar at hv
  -- the size of the code point decides what the first byte holds of it
  obtain ⟨n, hn⟩ : ∃ n, v < 0x800 ∧ n = 0xC0 + v / 0x40 ∨
      0x800 ≤ v ∧ v < 0x10000 ∧ n = 0xE0 + v / 0x1000 ∨ 0x10000 ≤ v ∧ n = 0xF0 + v / 0x40000 := by
    rcases Nat.lt_or_ge v 0x800 with h₁ | h₁
    · exact ⟨_, .inl ⟨h₁, rfl⟩⟩
    rcases Nat.lt_or_ge v 0x10000 with h₂ | h₂
    · exact ⟨_, .inr (.inl ⟨h₁, h₂, rfl⟩)⟩
    · exact ⟨_, .inr (.inr ⟨h₂, rfl⟩)⟩
  have hb : (UInt8.ofNat n).toNat = n :=
    UInt8.toNat_ofNat_of_lt' (by simp only [UInt8.size]; omega)
  obtain ⟨s, hs⟩ : ∃ s, start? (UInt8.ofNat n) = some s := by
    apply exists_start? <;> omega
  refine ⟨UInt8.ofNat n, s, by omega, hs, ?_⟩
  rcases start?_cases hs with ⟨ho, H⟩ | ⟨ho, H⟩ | ⟨ho, H⟩ <;> constructor <;>
    simp only [ho, Nat.reduceSub, leading] <;> omega

/-! ### Further bytes -/

theorem continuation_owed (h : s.owed ≠ 0) : continuation s.owed v =
    UInt8.ofNat (0x80 + leading (s.owed - 1) v % 64) :: continuation (s.owed - 1) v := by
  obtain ⟨k, hk⟩ := Nat.exists_eq_succ_of_ne_zero h
  rw [hk]
  rfl

/-- A continuation byte fixes six more bits of the code point. -/
theorem eq_bits_push_iff (hs : s.Open) :
    s.low ≤ b.toNat ∧ b.toNat ≤ s.high ∧ leading (s.owed - 1) v = (s.push b).bits ↔
      s.Fits v ∧ b = UInt8.ofNat (0x80 + leading (s.owed - 1) v % 64) := by
  obtain ⟨howed, hlow, hhigh⟩ := hs
  have hdiv : leading s.owed v = leading (s.owed - 1) v / 64 := by
    obtain ⟨k, hk⟩ := Nat.exists_eq_succ_of_ne_zero howed
    rw [hk]
    rfl
  have hb : b = UInt8.ofNat (0x80 + leading (s.owed - 1) v % 64) ↔
      b.toNat = 0x80 + leading (s.owed - 1) v % 64 := by
    rw [← UInt8.toNat_inj, UInt8.toNat_ofNat_of_lt' (by simp only [UInt8.size]; omega)]
  rw [hb]
  constructor
  · intro ⟨_, _, hbits⟩
    simp only [push] at hbits
    exact ⟨⟨by omega, by omega, by omega⟩, by omega⟩
  · intro ⟨⟨hbits, _, _⟩, _⟩
    simp only [push]
    omega

/-- What a sequence may become with one byte more. -/
theorem fits_and_cons_eq_iff {bs rest : List UInt8} (hs : s.Open) :
    s.Fits v ∧ b :: bs = continuation s.owed v ++ rest ↔
      (s.low ≤ b.toNat ∧ b.toNat ≤ s.high) ∧
        leading (s.owed - 1) v = (s.push b).bits ∧ bs = continuation (s.owed - 1) v ++ rest := by
  rw [continuation_owed hs.owed, List.cons_append, List.cons.injEq, ← and_assoc,
    ← eq_bits_push_iff hs]
  simp only [and_assoc]

theorem fits_push_iff :
    (s.push b).Fits v ↔ leading (s.owed - 1) v = (s.push b).bits := by
  constructor
  · exact Fits.bits
  · intro hv
    refine ⟨hv, ?_, ?_⟩ <;> simp only [push] <;> omega

theorem Open.push (h : 1 < s.owed) : (s.push b).Open :=
  ⟨by simp only [Sequence.push]; omega, Nat.le_refl _, Nat.le_refl _⟩

end Sequence

section
variable {s : Sequence} {pos : Nat} {b : UInt8} {bs : List UInt8} {cs : List Char}

/-- A sequence under way is one character, and the rest is decoded on its own. -/
theorem decodeFrom_some_eq_ok_iff (hs : s.Open) : decodeFrom pos (some s) bs = .ok cs ↔
    ∃ v rest, (s.Fits v ∧ bs = continuation s.owed v ++ rest) ∧
      (Char.ofNat v :: ·) <$> decodeFrom (pos + s.owed) none rest = .ok cs := by
  induction bs generalizing s pos with
  | nil => simp [decodeFrom, Sequence.continuation_owed hs.owed]
  | cons b bs ih =>
    have hpos : pos + s.owed = pos + 1 + (s.owed - 1) := by have := hs.owed; omega
    simp only [Sequence.fits_and_cons_eq_iff hs, hpos, decodeFrom]
    by_cases hb : s.low ≤ b.toNat ∧ b.toNat ≤ s.high
    · simp only [hb, and_self, if_true, true_and]
      by_cases hlast : s.owed - 1 = 0
      · rw [if_pos (show (s.push b).owed = 0 from hlast), hlast]
        simp [continuation, leading, and_assoc]
      · rw [if_neg (show (s.push b).owed ≠ 0 from hlast), ih (.push (by omega))]
        simp only [Sequence.fits_push_iff]
        rfl
    · simp [hb]

/-! ### Characters -/

theorem utf8EncodeChar_ofNat_toNat (h : b.toNat < 0x80) :
    String.utf8EncodeChar (Char.ofNat b.toNat) = [b] := by
  have hc : (Char.ofNat b.toNat).val.toNat = b.toNat := by
    rw [Char.ofNat, dif_pos (.inl (by omega))]
    rfl
  rw [String.utf8EncodeChar, hc, if_pos (by omega), UInt8.ofNat_toNat]

/-- A character is one ASCII byte, or a first byte and the bytes that it asks for. -/
theorem utf8EncodeChar_cases (c : Char) :
    c.toNat < 0x80 ∧ String.utf8EncodeChar c = [UInt8.ofNat c.toNat] ∨
    ∃ b s, 0x80 ≤ b.toNat ∧ Sequence.start? b = some s ∧ s.Fits c.toNat ∧
      String.utf8EncodeChar c = b :: continuation s.owed c.toNat := by
  rcases Nat.lt_or_ge c.toNat 0x80 with h | h
  · have hc : c.val.toNat = c.toNat := rfl
    exact .inl ⟨h, by simp only [String.utf8EncodeChar, hc]; rw [if_pos (by omega)]⟩
  · obtain ⟨b, s, hb, hs, hv⟩ := Sequence.exists_fits h c.valid
    exact .inr ⟨b, s, hb, hs, hv, Sequence.utf8EncodeChar_of_fits hs hv⟩

/-- Text begins with a character and its bytes, and the rest is decoded on its own. -/
theorem decodeFrom_none_eq_ok_iff : decodeFrom pos none bs = .ok cs ↔
    bs = [] ∧ cs = [] ∨ ∃ c rest, bs = String.utf8EncodeChar c ++ rest ∧
      (c :: ·) <$> decodeFrom (pos + (String.utf8EncodeChar c).length) none rest = .ok cs := by
  constructor
  · intro h
    cases bs with
    | nil =>
      cases h
      exact .inl ⟨rfl, rfl⟩
    | cons b bs =>
      right
      simp only [decodeFrom] at h
      split_ifs at h with hb
      · have hbytes := utf8EncodeChar_ofNat_toNat hb
        exact ⟨Char.ofNat b.toNat, bs, by rw [hbytes]; rfl, by rw [hbytes]; exact h⟩
      · cases hs : Sequence.start? b with
        | none => simp [hs] at h
        | some s =>
          rw [hs, decodeFrom_some_eq_ok_iff (Sequence.open_of_start? hs)] at h
          obtain ⟨v, rest, ⟨hv, rfl⟩, h⟩ := h
          have hc := Sequence.toNat_ofNat_of_fits hs hv
          have hbytes := Sequence.utf8EncodeChar_of_fits hs (hc.symm ▸ hv)
          rw [hc] at hbytes
          refine ⟨Char.ofNat v, rest, by rw [hbytes, List.cons_append], ?_⟩
          rwa [hbytes, List.length_cons, length_continuation, Nat.add_comm s.owed, ← Nat.add_assoc]
  · rintro (⟨rfl, rfl⟩ | ⟨c, rest, rfl, h⟩)
    · rfl
    rcases utf8EncodeChar_cases c with ⟨hc, hbytes⟩ | ⟨b, s, hb, hs, hv, hbytes⟩
    · have hb : (UInt8.ofNat c.toNat).toNat = c.toNat :=
        UInt8.toNat_ofNat_of_lt' (by simp only [UInt8.size]; omega)
      rw [hbytes] at h ⊢
      rw [List.singleton_append, decodeFrom, hb, if_pos hc, Char.ofNat_toNat]
      exact h
    · rw [hbytes, List.length_cons, length_continuation, Nat.add_comm s.owed, ← Nat.add_assoc] at h
      rw [hbytes, List.cons_append, decodeFrom, if_neg (by omega), hs]
      apply (decodeFrom_some_eq_ok_iff (Sequence.open_of_start? hs)).mpr
      exact ⟨c.toNat, rest, ⟨hv, rfl⟩, by rw [Char.ofNat_toNat]; exact h⟩

theorem map_cons_eq_ok_iff {c : Char} {x : Except DecodeError (List Char)} :
    (c :: ·) <$> x = .ok cs ↔ ∃ cs', cs = c :: cs' ∧ x = .ok cs' := by
  cases x <;> simp [Functor.map, Except.map, eq_comm]

/-- Decoding undoes encoding, and accepts nothing else. -/
theorem decode_eq_ok_iff : decode bs = .ok cs ↔ bs = encode cs := by
  suffices H : ∀ pos, decodeFrom pos none bs = .ok cs ↔ bs = encode cs from H 0
  induction cs generalizing bs with
  | nil =>
    intro pos
    rw [decodeFrom_none_eq_ok_iff]
    simp [map_cons_eq_ok_iff, encode]
  | cons c cs ih =>
    intro pos
    rw [decodeFrom_none_eq_ok_iff]
    simp only [map_cons_eq_ok_iff]
    constructor
    · rintro (⟨-, ⟨⟩⟩ | ⟨_, rest, rfl, _, ⟨⟩, h⟩)
      rw [(ih _).mp h]
      rfl
    · rintro rfl
      exact .inr ⟨c, encode cs, rfl, cs, rfl, (ih _).mpr rfl⟩

theorem encode_injective {cs ds : List Char} (h : encode cs = encode ds) : cs = ds := by
  have hcs : decode (encode cs) = .ok cs := decode_eq_ok_iff.mpr rfl
  exact Except.ok.inj (hcs.symm.trans (decode_eq_ok_iff.mpr h))

end
end Formulary.Text.Utf8
