/-!
# Text

Programs, names, literals and everything rendered from them are lists of characters. A character
is a Unicode scalar value, so lengths and offsets count scalar values.

Out of scope are strings with half of a surrogate pair in them, which no file in UTF-8 holds, and a
limit to the digits of an integer that is written.
-/

namespace CallNotation

/-- A text: one character after the other. -/
abbrev Text := List Char

namespace Text

/-- The lines, each but the last followed by a line feed. -/
def joinLines (ls : List Text) : Text :=
  List.intercalate ['\n'] ls

/-- The text followed by as many blanks as it falls short of `width`. -/
def padRight (width : Nat) (t : Text) : Text :=
  t ++ List.replicate (width - t.length) ' '

/-- An integer in decimal digits, after a minus sign if it is negative. -/
def ofInt (n : Int) : Text :=
  (toString n).toList

end Text

end CallNotation
