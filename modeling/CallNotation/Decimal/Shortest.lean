/-!
# The shortest decimal of a floating-point number

A finite floating-point number is, up to its sign, a mantissa times a power of two. Many decimals
are read as that number. `Magnitude.shortest` is one with the fewest digits; of several with as few
it is the nearest to the number, and the even one if two are as near.

* `Magnitude.onGrid` looks for a decimal with a given number of digits. It is enough to try the two
  that the number lies between: if a decimal is read as the number, so is each one in between.
* `Magnitude.shortest` tries one digit, then two, and so on. Seventeen digits tell all numbers
  apart; behind them stands the exact decimal, so that the search never fails.
-/

namespace CallNotation

/-- The decimal `digits · 10 ^ exponent`. -/
structure Decimal where
  /-- The digits, read as a natural number. -/
  digits : Nat
  /-- The power of ten. -/
  exponent : Int
deriving DecidableEq

/-- The floating-point number that a decimal is read as. -/
def Decimal.toFloat (d : Decimal) : Float :=
  Float.ofScientific d.digits (decide (d.exponent < 0)) d.exponent.natAbs

/-- The number `mantissa · 2 ^ exponent`. -/
structure Magnitude where
  /-- The mantissa. -/
  mantissa : Nat
  /-- The power of two. -/
  exponent : Int
deriving DecidableEq

namespace Magnitude

/-- The magnitude of a floating-point number. For what is not finite, a number that is greater than
every finite one. -/
def ofFloat (x : Float) : Magnitude :=
  let fraction : Nat := x.toBits.toNat % Nat.pow 2 52
  let biased : Nat := x.toBits.toNat / Nat.pow 2 52 % Nat.pow 2 11
  if biased = 0 then ⟨fraction, -1074⟩ else ⟨Nat.pow 2 52 + fraction, biased - 1075⟩

/-- The numerator of the number. -/
def numerator (m : Magnitude) : Nat :=
  m.mantissa * Nat.pow 2 m.exponent.toNat

/-- The denominator of the number. -/
def denominator (m : Magnitude) : Nat :=
  Nat.pow 2 (-m.exponent).toNat

/-- The number of decimal digits of `n`, none for zero. -/
def digitCount (n : Nat) : Nat :=
  if n = 0 then 0 else (Nat.toDigits 10 n).length

/-- The least power of ten that is greater than the number. -/
def scale (m : Magnitude) : Int :=
  if m.denominator ≤ m.numerator then digitCount (m.numerator / m.denominator)
  else 1 - (digitCount ((m.denominator - 1) / m.numerator) : Int)

/-- Whether a decimal is read as the number. -/
def readFrom (m : Magnitude) (d : Decimal) : Bool :=
  ofFloat d.toFloat = m

/-- The decimal with `n` digits that is read as the number, if there is one: of two, the nearer. -/
def onGrid (m : Magnitude) (n : Nat) : Option Decimal :=
  let exponent := m.scale - n
  let top := m.numerator * Nat.pow 10 (-exponent).toNat
  let bottom := m.denominator * Nat.pow 10 exponent.toNat
  let digits := top / bottom
  let below : Decimal := ⟨digits, exponent⟩
  let above : Decimal := ⟨digits + 1, exponent⟩
  match m.readFrom below, m.readFrom above with
  | true, true =>
    match compare (2 * (top % bottom)) bottom with
    | .lt => some below
    | .eq => some (if digits % 2 = 0 then below else above)
    | .gt => some above
  | true, false => some below
  | false, true => some above
  | false, false => none

/-- The decimal that is the number itself. -/
def exactDecimal (m : Magnitude) : Decimal :=
  ⟨m.numerator * Nat.pow 5 (-m.exponent).toNat, min m.exponent 0⟩

/-- The shortest decimal that is read as the number. -/
def shortest (m : Magnitude) : Decimal :=
  ((List.range 17).findSome? fun n => m.onGrid (n + 1)).getD m.exactDecimal

/-- Two powers of two: below the first the numbers lie closer than above it, and the second lies
halfway between two decimals of seventeen digits. -/
example : shortest ⟨2 ^ 52, -96⟩ = ⟨5684341886080802, -29⟩ ∧
    shortest ⟨2 ^ 52, -77⟩ = ⟨29802322387695312, -24⟩ := by
  decide +kernel

end Magnitude

end CallNotation
