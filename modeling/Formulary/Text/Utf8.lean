/-!
# Strict UTF-8

Decoding of UTF-8 that accepts only well-formed sequences, and says what is wrong with the first
one that is not: where it begins, the bytes that could still have been part of a sequence, and
the fault.
-/

namespace Formulary.Text.Utf8

/-- What is wrong with a byte sequence. -/
inductive Fault where
  | invalidStart
  | invalidContinuation
  | unexpectedEnd
  deriving DecidableEq

def Fault.reason : Fault → String
  | .invalidStart => "invalid start byte"
  | .invalidContinuation => "invalid continuation byte"
  | .unexpectedEnd => "unexpected end of data"

/-- The first ill-formed sequence of a text: its position and its bytes up to the fault. -/
structure DecodeError where
  position : Nat
  bytes : List UInt8
  fault : Fault
  deriving DecidableEq

/-- A lone byte is shown in hexadecimal, several bytes by their positions. -/
def DecodeError.message (e : DecodeError) : String :=
  let subject := match e.bytes with
    | [b] =>
      "byte 0x" ++ String.ofList [Nat.digitChar (b.toNat / 16), Nat.digitChar (b.toNat % 16)] ++
        " in position " ++ toString e.position
    | bs =>
      "bytes in position " ++ toString e.position ++ "-" ++
        toString (e.position + bs.length - 1)
  "'utf-8' codec can't decode " ++ subject ++ ": " ++ e.fault.reason

/-- The sequence under way: the bytes still owed, the bounds of the next one, the bits read so
far, and the bytes read so far. -/
structure Sequence where
  owed : Nat
  low : Nat
  high : Nat
  bits : Nat
  bytes : List UInt8

/-- The sequence that a first byte beyond ASCII begins. The bounds of its second byte shut out
overlong forms, surrogates, and what lies above U+10FFFF. -/
def Sequence.start? (b : UInt8) : Option Sequence :=
  let n := b.toNat
  if 0xC2 ≤ n ∧ n ≤ 0xDF then some ⟨1, 0x80, 0xBF, n - 0xC0, [b]⟩
  else if n = 0xE0 then some ⟨2, 0xA0, 0xBF, 0, [b]⟩
  else if n = 0xED then some ⟨2, 0x80, 0x9F, 0xD, [b]⟩
  else if 0xE1 ≤ n ∧ n ≤ 0xEF then some ⟨2, 0x80, 0xBF, n - 0xE0, [b]⟩
  else if n = 0xF0 then some ⟨3, 0x90, 0xBF, 0, [b]⟩
  else if 0xF1 ≤ n ∧ n ≤ 0xF3 then some ⟨3, 0x80, 0xBF, n - 0xF0, [b]⟩
  else if n = 0xF4 then some ⟨3, 0x80, 0x8F, 4, [b]⟩
  else none

/-- The sequence one continuation byte later. -/
def Sequence.push (s : Sequence) (b : UInt8) : Sequence :=
  ⟨s.owed - 1, 0x80, 0xBF, s.bits * 64 + (b.toNat - 0x80), s.bytes ++ [b]⟩

/-- The characters of the bytes that follow position `pos`, after a sequence under way. -/
def decodeFrom (pos : Nat) : Option Sequence → List UInt8 → Except DecodeError (List Char)
  | none, [] => .ok []
  | some s, [] => .error ⟨pos - s.bytes.length, s.bytes, .unexpectedEnd⟩
  | none, b :: bs =>
    if b.toNat < 0x80 then (Char.ofNat b.toNat :: ·) <$> decodeFrom (pos + 1) none bs
    else match Sequence.start? b with
      | some s => decodeFrom (pos + 1) (some s) bs
      | none => .error ⟨pos, [b], .invalidStart⟩
  | some s, b :: bs =>
    if s.low ≤ b.toNat ∧ b.toNat ≤ s.high then
      let s := s.push b
      if s.owed = 0 then (Char.ofNat s.bits :: ·) <$> decodeFrom (pos + 1) none bs
      else decodeFrom (pos + 1) (some s) bs
    else .error ⟨pos - s.bytes.length, s.bytes, .invalidContinuation⟩

/-- The text that `bytes` encode. -/
def decode (bytes : List UInt8) : Except DecodeError (List Char) :=
  decodeFrom 0 none bytes

/-- The bytes of a text. -/
def encode (cs : List Char) : List UInt8 :=
  cs.flatMap String.utf8EncodeChar

end Formulary.Text.Utf8
