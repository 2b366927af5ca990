import CallNotation.Store.Basic
import Mathlib.Tactic.IntervalCases

/-!
# Texts in files

A text is written to a file as it is and read with all its line ends made line feeds. Decoding
undoes encoding, so what a file gives back differs from what was written in its line ends alone,
and not at all if no carriage return was written.

Results:
* **`Utf8.decode_encode`**: the bytes of a text decode to the text.
* `Text.ofFile_encode`: what is read from a file that a text was written to.
* `Text.ofFile_encode_eq_self`: without carriage returns it is the text that was written.
-/

namespace CallNotation

/-! ## Decoding what was encoded -/

namespace Utf8

/-- What is pending of a character after its first byte: `owed` bytes are to come, and `bits` have
been read. -/
def Pending.Starts (p : Pending) (owed bits low high : Nat) : Prop :=
  p.owed = owed ∧ p.bits = bits ∧ p.low.toNat = low ∧ p.high.toNat = high

theorem toNat_byte {n : Nat} (h : n < 256) : (UInt8.ofNat n).toNat = n :=
  UInt8.toNat_ofNat_of_lt' h

/-- The first of two bytes. -/
theorem lead?_two (pos : Nat) {a : Nat} (h : 2 ≤ a) (h' : a < 32) :
    ∃ p, lead? pos (UInt8.ofNat (a + 192)) = some p ∧ p.Starts 1 a 0x80 0xBF := by
  have hb : (UInt8.ofNat (a + 192)).toNat = a + 192 := toNat_byte (by omega)
  have hrange : 0xC2 ≤ UInt8.ofNat (a + 192) ∧ UInt8.ofNat (a + 192) ≤ 0xDF := by
    rw [UInt8.le_iff_toNat_le, UInt8.le_iff_toNat_le, hb]
    exact ⟨Nat.add_le_add_right h 192, Nat.add_le_add_right (Nat.le_of_lt_succ h') 192⟩
  refine ⟨_, if_pos hrange, rfl, ?_, rfl, rfl⟩
  rw [hb, Nat.add_sub_cancel]

/-- The first of three bytes, which leaves out overlong forms and surrogates. -/
theorem lead?_three (pos : Nat) {a : Nat} (h : a < 16) :
    ∃ p, lead? pos (UInt8.ofNat (a + 224)) = some p ∧
      p.Starts 2 a (if a = 0 then 0xA0 else 0x80) (if a = 13 then 0x9F else 0xBF) := by
  interval_cases a <;> exact ⟨_, rfl, rfl, rfl, rfl, rfl⟩

/-- The first of four bytes, which leaves out overlong forms and what is above U+10FFFF. -/
theorem lead?_four (pos : Nat) {a : Nat} (h : a < 5) :
    ∃ p, lead? pos (UInt8.ofNat (a + 240)) = some p ∧
      p.Starts 3 a (if a = 0 then 0x90 else 0x80) (if a = 4 then 0x8F else 0xBF) := by
  interval_cases a <;> exact ⟨_, rfl, rfl, rfl, rfl, rfl⟩

/-- What is pending after one more byte that is neither the first nor the last. -/
theorem Pending.Starts.next {p : Pending} {owed bits low high k : Nat}
    (hp : p.Starts (owed + 2) bits low high) (hlow : low ≤ k + 128) (hhigh : k + 128 ≤ high)
    (hk : k < 64) (pos : Nat) (bs : Bytes) :
    ∃ q, decodeFrom pos (some p) (UInt8.ofNat (k + 128) :: bs) = decodeFrom (pos + 1) (some q) bs ∧
      q.Starts (owed + 1) (bits * 64 + k) 0x80 0xBF := by
  obtain ⟨howed, hbits, hl, hh⟩ := hp
  have hb : (UInt8.ofNat (k + 128)).toNat = k + 128 := toNat_byte (by omega)
  have hrange : p.low ≤ UInt8.ofNat (k + 128) ∧ UInt8.ofNat (k + 128) ≤ p.high := by
    rw [UInt8.le_iff_toNat_le, UInt8.le_iff_toNat_le, hb, hl, hh]
    exact ⟨hlow, hhigh⟩
  have hmore : p.owed ≠ 1 := by omega
  rw [decodeFrom, if_pos hrange, if_neg hmore]
  refine ⟨_, rfl, ?_, ?_, rfl, rfl⟩
  · simp only [howed]
    omega
  · simp only [hb, hbits, Nat.add_sub_cancel]

/-- The last byte of a character. -/
theorem Pending.Starts.last {p : Pending} {bits low high k : Nat} (hp : p.Starts 1 bits low high)
    (hlow : low ≤ k + 128) (hhigh : k + 128 ≤ high) (hk : k < 64) (pos : Nat) (bs : Bytes) :
    decodeFrom pos (some p) (UInt8.ofNat (k + 128) :: bs) =
      (Char.ofNat (bits * 64 + k) :: ·) <$> decodeFrom (pos + 1) none bs := by
  obtain ⟨howed, hbits, hl, hh⟩ := hp
  have hb : (UInt8.ofNat (k + 128)).toNat = k + 128 := toNat_byte (by omega)
  have hrange : p.low ≤ UInt8.ofNat (k + 128) ∧ UInt8.ofNat (k + 128) ≤ p.high := by
    rw [UInt8.le_iff_toNat_le, UInt8.le_iff_toNat_le, hb, hl, hh]
    exact ⟨hlow, hhigh⟩
  rw [decodeFrom, if_pos hrange, if_pos howed]
  simp only [hb, hbits, Nat.add_sub_cancel]

/-- A first byte above 0x7F leaves its character pending. -/
theorem decodeFrom_lead {n pos : Nat} {p : Pending} (h : 0x7F < n) (h' : n < 256)
    (hp : lead? pos (UInt8.ofNat n) = some p) (bs : Bytes) :
    decodeFrom pos none (UInt8.ofNat n :: bs) = decodeFrom (pos + 1) (some p) bs := by
  have hascii : ¬ UInt8.ofNat n ≤ 0x7F := by
    rw [UInt8.le_iff_toNat_le, toNat_byte h']
    exact Nat.not_le.mpr h
  rw [decodeFrom, if_neg hascii, hp]

/-- **The bytes of a character are read as the character**, whatever follows them. -/
theorem decodeFrom_encodeChar (c : Char) (pos : Nat) (bs : Bytes) :
    ∃ pos', decodeFrom pos none (String.utf8EncodeChar c ++ bs) =
      (c :: ·) <$> decodeFrom pos' none bs := by
  have hvalid : c.val.toNat < 0xD800 ∨ 0xDFFF < c.val.toNat ∧ c.val.toNat < 0x110000 := c.valid
  have hc : Char.ofNat c.val.toNat = c := Char.ofNat_toNat c
  unfold String.utf8EncodeChar
  generalize c.val.toNat = v at hvalid hc
  simp only
  split
  · rename_i hv
    have hb : (UInt8.ofNat v).toNat = v := toNat_byte (by omega)
    have hascii : UInt8.ofNat v ≤ 0x7F := by
      rw [UInt8.le_iff_toNat_le, hb]
      exact hv
    refine ⟨pos + 1, ?_⟩
    rw [List.singleton_append, decodeFrom, if_pos hascii, hb, hc]
  split
  · rename_i hv' hv
    obtain ⟨p, hp, hstart⟩ := lead?_two pos (a := v / 64 % 32) (by omega) (by omega)
    have hbits : v / 64 % 32 * 64 + v % 64 = v := by omega
    refine ⟨pos + 1 + 1, ?_⟩
    rw [List.cons_append, List.singleton_append, decodeFrom_lead (by omega) (by omega) hp,
      hstart.last (by omega) (by omega) (by omega), hbits, hc]
  split
  · rename_i hv' hv
    obtain ⟨p, hp, hstart⟩ := lead?_three pos (a := v / 4096 % 16) (by omega)
    have hlow : (if v / 4096 % 16 = 0 then 0xA0 else 0x80) ≤ v / 64 % 64 + 128 := by
      split <;> omega
    have hhigh : v / 64 % 64 + 128 ≤ (if v / 4096 % 16 = 13 then 0x9F else 0xBF) := by
      split <;> omega
    obtain ⟨q, hq, hnext⟩ := hstart.next hlow hhigh (by omega) (pos + 1)
      (UInt8.ofNat (v % 64 + 128) :: bs)
    have hbits : (v / 4096 % 16 * 64 + v / 64 % 64) * 64 + v % 64 = v := by omega
    refine ⟨pos + 1 + 1 + 1, ?_⟩
    rw [List.cons_append, List.cons_append, List.singleton_append,
      decodeFrom_lead (by omega) (by omega) hp, hq,
      hnext.last (by omega) (by omega) (by omega), hbits, hc]
  · rename_i hv' hv
    obtain ⟨p, hp, hstart⟩ := lead?_four pos (a := v / 262144 % 8) (by omega)
    have hlow : (if v / 262144 % 8 = 0 then 0x90 else 0x80) ≤ v / 4096 % 64 + 128 := by
      split <;> omega
    have hhigh : v / 4096 % 64 + 128 ≤ (if v / 262144 % 8 = 4 then 0x8F else 0xBF) := by
      split <;> omega
    obtain ⟨q, hq, hnext⟩ := hstart.next hlow hhigh (by omega) (pos + 1)
      (UInt8.ofNat (v / 64 % 64 + 128) :: UInt8.ofNat (v % 64 + 128) :: bs)
    obtain ⟨r, hr, hlast⟩ := hnext.next (k := v / 64 % 64) (by omega) (by omega) (by omega)
      (pos + 1 + 1) (UInt8.ofNat (v % 64 + 128) :: bs)
    have hbits : ((v / 262144 % 8 * 64 + v / 4096 % 64) * 64 + v / 64 % 64) * 64 + v % 64 = v := by
      omega
    refine ⟨pos + 1 + 1 + 1 + 1, ?_⟩
    rw [List.cons_append, List.cons_append, List.cons_append, List.singleton_append,
      decodeFrom_lead (by omega) (by omega) hp, hq, hr,
      hlast.last (by omega) (by omega) (by omega), hbits, hc]

/-- **Decoding undoes encoding.** -/
theorem decode_encode (t : Text) : decode (encode t) = .ok t := by
  have h : ∀ pos, decodeFrom pos none (encode t) = .ok t := by
    induction t with
    | nil => exact fun pos => rfl
    | cons c t ih =>
      intro pos
      obtain ⟨pos', h⟩ := decodeFrom_encodeChar c pos (encode t)
      rw [encode, List.flatMap_cons, ← encode, h, ih pos']
      rfl
  exact h 0

end Utf8

/-! ## Line ends -/

namespace Text

/-- Reading leaves no carriage return. -/
theorem not_mem_unifyNewlines (t : Text) : '\r' ∉ t.unifyNewlines := by
  fun_induction unifyNewlines t with
  | case1 => exact List.not_mem_nil
  | case2 t ih => exact List.not_mem_cons_of_ne_of_not_mem (by decide) ih
  | case3 t _ ih => exact List.not_mem_cons_of_ne_of_not_mem (by decide) ih
  | case4 c t _ hc ih => exact List.not_mem_cons_of_ne_of_not_mem (fun h => hc h.symm) ih

/-- A text without carriage returns is read as it is. -/
theorem unifyNewlines_eq_self {t : Text} (h : '\r' ∉ t) : t.unifyNewlines = t := by
  fun_induction unifyNewlines t with
  | case1 => rfl
  | case2 t _ => exact absurd List.mem_cons_self h
  | case3 t _ _ => exact absurd List.mem_cons_self h
  | case4 c t _ _ ih => rw [ih (List.not_mem_of_not_mem_cons h)]

/-- **What is read from a file that a text was written to.** -/
theorem ofFile_encode (t : Text) : ofFile (Utf8.encode t) = .ok t.unifyNewlines := by
  rw [ofFile, Utf8.decode_encode]
  rfl

/-- **A text without carriage returns is read back as it was written.** -/
theorem ofFile_encode_eq_self {t : Text} (h : '\r' ∉ t) : ofFile (Utf8.encode t) = .ok t := by
  rw [ofFile_encode, unifyNewlines_eq_self h]

/-- No text that is read from a file holds a carriage return. -/
theorem not_mem_of_ofFile {content : Bytes} {t : Text} (h : ofFile content = .ok t) : '\r' ∉ t := by
  unfold ofFile at h
  cases hd : Utf8.decode content with
  | error e =>
    rw [hd] at h
    cases h
  | ok x =>
    rw [hd] at h
    cases h
    exact not_mem_unifyNewlines x

end Text

end CallNotation
