/-!
# Blank characters

The characters that may separate two tokens: the Unicode white space characters and the four
information separators U+001C to U+001F.
-/

namespace CallNotation

/-- The code points of the blank characters, as ranges with both ends included. -/
def blankRanges : List (Nat × Nat) :=
  [(0x09, 0x0D), (0x1C, 0x20), (0x85, 0x85), (0xA0, 0xA0), (0x1680, 0x1680), (0x2000, 0x200A),
    (0x2028, 0x2029), (0x202F, 0x202F), (0x205F, 0x205F), (0x3000, 0x3000)]

/-- Whether the character is blank. -/
def isBlank (c : Char) : Bool :=
  blankRanges.any fun r => decide (r.1 ≤ c.toNat) && decide (c.toNat ≤ r.2)

/-- There are 29 blank characters. -/
example : (blankRanges.map fun r => r.2 - r.1 + 1).sum = 29 := by decide

end CallNotation
