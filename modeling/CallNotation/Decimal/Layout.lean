import CallNotation.Decimal.Shortest
import CallNotation.Text.Basic

/-!
# Floating-point numbers in digits

A finite number is written with the digits of its shortest decimal: in positions, always with a
point, while its leading digit counts for at least `10 ^ (-4)` and less than `10 ^ 16`, and as a
power of ten outside of that. The sign of zero is kept.
-/

namespace CallNotation

/-- The exponent of a power of ten: a sign and two digits or more. -/
def exponentDigits (e : Int) : Text :=
  let digits := Nat.toDigits 10 e.natAbs
  (if e < 0 then '-' else '+') :: List.replicate (2 - digits.length) '0' ++ digits

/-- Writes the number `0.d₁d₂… · 10 ^ point` for the digits `d₁d₂…`. -/
def placeDigits (digits : Text) (point : Int) : Text :=
  if -4 < point ∧ point ≤ 16 then
    if point ≤ 0 then '0' :: '.' :: List.replicate (-point).toNat '0' ++ digits
    else
      let whole := digits.take point.toNat
      let rest := digits.drop point.toNat
      whole ++ List.replicate (point.toNat - whole.length) '0' ++ '.' ::
        (if rest.isEmpty then ['0'] else rest)
  else
    let rest := digits.drop 1
    digits.take 1 ++ (if rest.isEmpty then [] else '.' :: rest) ++ 'e' :: exponentDigits (point - 1)

/-- The decimal in digits. -/
def Decimal.describe (d : Decimal) : Text :=
  if d.digits = 0 then ['0', '.', '0']
  else
    let digits := Nat.toDigits 10 d.digits
    placeDigits (digits.reverse.dropWhile (· == '0')).reverse (digits.length + d.exponent)

/-- Whether the number has a minus sign. -/
def hasMinus (x : Float) : Bool :=
  Nat.pow 2 63 ≤ x.toBits.toNat

/-- Whether the number is neither infinite nor undefined. -/
def isFiniteFloat (x : Float) : Bool :=
  (Magnitude.ofFloat x).exponent ≤ 971

/-- The number in digits. -/
def describeFloat (x : Float) : Text :=
  let m := Magnitude.ofFloat x
  if isFiniteFloat x then (if hasMinus x then ['-'] else []) ++ m.shortest.describe
  else if Nat.pow 2 52 < m.mantissa then "nan".toList
  else (if hasMinus x then ['-'] else []) ++ "inf".toList

example : describeFloat 1e16 = "1e+16".toList ∧ describeFloat (-150) = "-150.0".toList := by
  decide +kernel

end CallNotation
