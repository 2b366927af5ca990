import CallNotation.Text.Basic

/-!
# UTF-8

`encode` writes a text as bytes. `decode` reads bytes strictly: no overlong forms, no surrogates,
nothing above U+10FFFF. It reads one byte at a time; inside a sequence it keeps what the next byte
may be. A refusal names the longest part of the offending sequence that some character starts with.
-/

namespace CallNotation

/-- A sequence of bytes. -/
abbrev Bytes := List UInt8

namespace Utf8

/-- Why a sequence of bytes is refused. -/
inductive Reason where
  /-- No character starts with the byte. -/
  | badStart
  /-- The byte after the named ones does not continue them. -/
  | badContinuation
  /-- The bytes end inside a character. -/
  | truncated
deriving DecidableEq

/-- The first refused sequence of bytes. -/
structure DecodeError where
  /-- The offset of its first byte. -/
  first : Nat
  /-- The offset of its last byte. -/
  last : Nat
  /-- Its first byte. -/
  lead : UInt8
  /-- Why it is refused. -/
  reason : Reason
deriving DecidableEq

/-- The wording of the reason. -/
def Reason.message : Reason → String
  | .badStart => "invalid start byte"
  | .badContinuation => "invalid continuation byte"
  | .truncated => "unexpected end of data"

/-- The wording of the refusal: a single byte is shown, more are given by their offsets. -/
def DecodeError.message (e : DecodeError) : String :=
  if e.first = e.last then
    let byte := String.ofList (Nat.toDigits 16 e.lead.toNat)
    s!"'utf-8' codec can't decode byte 0x{byte} in position {e.first}: {e.reason.message}"
  else
    s!"'utf-8' codec can't decode bytes in position {e.first}-{e.last}: {e.reason.message}"

/-- A character of which some bytes have been read. -/
structure Pending where
  /-- The offset of its first byte. -/
  start : Nat
  /-- Its first byte. -/
  lead : UInt8
  /-- The number of bytes still to come. -/
  owed : Nat
  /-- The least next byte. -/
  low : UInt8
  /-- The greatest next byte. -/
  high : UInt8
  /-- The bits of the code point read so far. -/
  bits : Nat

/-- The character that a byte above 0x7F starts, if one does. -/
def lead? (start : Nat) (b : UInt8) : Option Pending :=
  if 0xC2 ≤ b ∧ b ≤ 0xDF then some ⟨start, b, 1, 0x80, 0xBF, b.toNat - 0xC0⟩
  else if b = 0xE0 then some ⟨start, b, 2, 0xA0, 0xBF, 0⟩
  else if b = 0xED then some ⟨start, b, 2, 0x80, 0x9F, 0xD⟩
  else if 0xE1 ≤ b ∧ b ≤ 0xEF then some ⟨start, b, 2, 0x80, 0xBF, b.toNat - 0xE0⟩
  else if b = 0xF0 then some ⟨start, b, 3, 0x90, 0xBF, 0⟩
  else if 0xF1 ≤ b ∧ b ≤ 0xF3 then some ⟨start, b, 3, 0x80, 0xBF, b.toNat - 0xF0⟩
  else if b = 0xF4 then some ⟨start, b, 3, 0x80, 0x8F, 4⟩
  else none

/-- The refusal of the bytes read for a pending character, `pos` being the offset behind them. -/
def Pending.refuse (p : Pending) (pos : Nat) (reason : Reason) : DecodeError :=
  ⟨p.start, pos - 1, p.lead, reason⟩

/-- Decodes the bytes from offset `pos` on, the first of them within a pending character if
there is one. -/
def decodeFrom (pos : Nat) : Option Pending → Bytes → Except DecodeError Text
  | none, [] => .ok []
  | some p, [] => .error (p.refuse pos .truncated)
  | none, b :: bs =>
    if b ≤ 0x7F then (Char.ofNat b.toNat :: ·) <$> decodeFrom (pos + 1) none bs
    else
      match lead? pos b with
      | some p => decodeFrom (pos + 1) (some p) bs
      | none => .error ⟨pos, pos, b, .badStart⟩
  | some p, b :: bs =>
    if p.low ≤ b ∧ b ≤ p.high then
      let bits := p.bits * 64 + (b.toNat - 0x80)
      if p.owed = 1 then (Char.ofNat bits :: ·) <$> decodeFrom (pos + 1) none bs
      else
        decodeFrom (pos + 1)
          (some { p with owed := p.owed - 1, low := 0x80, high := 0xBF, bits := bits }) bs
    else .error (p.refuse pos .badContinuation)

/-- The text that the bytes encode. -/
def decode (bs : Bytes) : Except DecodeError Text :=
  decodeFrom 0 none bs

/-- The bytes that encode the text. -/
def encode (t : Text) : Bytes :=
  t.flatMap String.utf8EncodeChar

end Utf8

end CallNotation
