import CallNotation.Text.Basic
import CallNotation.Text.Printable

/-!
# Quoted text

`quoted t` writes a text between quotes so that it stays on one line and shows only printable
characters. The quote is an apostrophe, or a double quote if the text holds an apostrophe and no
double quote. The quote in use and the backslash get a backslash in front; a line feed, a carriage
return and a tab are written `\n`, `\r` and `\t`; any other unprintable character is written as
its code point in hexadecimal, in two, four or eight digits.
-/

namespace CallNotation.Text

/-- The apostrophe. -/
def apostrophe : Char := Char.ofNat 0x27

/-- A digit of a hexadecimal numeral, in lower case. -/
def hexDigit (n : Nat) : Char :=
  Char.ofNat (if n < 10 then 0x30 + n else 0x57 + n)

/-- The last `width` hexadecimal digits of `n`. -/
def hex : Nat → Nat → Text
  | 0, _ => []
  | width + 1, n => hex width (n / 16) ++ [hexDigit (n % 16)]

/-- The escape of an unprintable character: the shortest of the three forms that holds it. -/
def codePointEscape (c : Char) : Text :=
  if c.toNat < 0x100 then '\\' :: 'x' :: hex 2 c.toNat
  else if c.toNat < 0x10000 then '\\' :: 'u' :: hex 4 c.toNat
  else '\\' :: 'U' :: hex 8 c.toNat

/-- How a character is written between quotes `quote`. -/
def escape (quote c : Char) : Text :=
  if c = quote ∨ c = '\\' then ['\\', c]
  else if c = '\n' then ['\\', 'n']
  else if c = '\r' then ['\\', 'r']
  else if c = '\t' then ['\\', 't']
  else if isPrintable c then [c]
  else codePointEscape c

/-- The quote that a text is written in. -/
def quoteFor (t : Text) : Char :=
  if apostrophe ∈ t ∧ '"' ∉ t then '"' else apostrophe

/-- The text in quotes. -/
def quoted (t : Text) : Text :=
  quoteFor t :: t.flatMap (escape (quoteFor t)) ++ [quoteFor t]

end CallNotation.Text
