/-!
# Decimal fractions in binary

A decimal fraction is kept as the nearest number of 53 binary digits, a tie going to the even one.
Very small fractions have fewer digits, as no exponent lies below −1074, and what would need an
exponent above 971 is not finite.
-/

namespace ChipEight.Decimal

/-- A binary number: `finite m e` is `m · 2ᵉ`; infinities and results that are no number are not
told apart. -/
inductive Binary64 where
  | finite (mantissa exponent : Int)
  | notFinite
  deriving DecidableEq, Repr

namespace Binary64

/-- The number of binary digits of a mantissa. -/
def precision : Nat := 53

def leastExponent : Int := -1074

/-- The greatest exponent of a mantissa with all its digits. -/
def greatestExponent : Int := 971

/-- The natural number nearest to `n / d`, a tie going to the even one. -/
def roundDiv (n d : Nat) : Nat :=
  let q := n / d
  let twice := 2 * (n % d)
  if twice < d then q
  else if d < twice then q + 1
  else q + q % 2

/-- The numerator and the denominator of `n / d` divided by `2ᵉ`. -/
def scaled (n d : Nat) (e : Int) : Nat × Nat :=
  if 0 ≤ e then (n, d * Nat.pow 2 e.toNat) else (n * Nat.pow 2 (-e).toNat, d)

/-- The exponent that leaves `n / d` with the right number of digits before the point: of the two
that the lengths of `n` and `d` allow, the lesser one if it does not leave too many. -/
def exponentFor (n d : Nat) : Int :=
  let low := max ((n.log2 : Int) - d.log2 - precision) leastExponent
  let (n', d') := scaled n d low
  if n' / d' < Nat.pow 2 precision then low else low + 1

/-- The binary number nearest to `n / d`. -/
def ofRatio (negative : Bool) (n d : Nat) : Binary64 :=
  let e := exponentFor n d
  let (n', d') := scaled n d e
  let m := roundDiv n' d'
  if greatestExponent < e ∨ e = greatestExponent ∧ m = Nat.pow 2 precision then
    notFinite
  else
    finite (if negative then -(m : Int) else m) e

/-- The binary number nearest to `digits · 10ˣ`. Powers of ten that are out of reach for `length`
digits are not worked out. -/
def ofDecimal (negative : Bool) (digits length : Nat) (x : Int) : Binary64 :=
  if digits = 0 ∨ length + x < -400 then finite 0 0
  else if 400 < x then notFinite
  else if 0 ≤ x then ofRatio negative (digits * Nat.pow 10 x.toNat) 1
  else ofRatio negative digits (Nat.pow 10 (-x).toNat)

/-- The integer that a number is, if it is one. -/
def whole? : Binary64 → Option Int
  | notFinite => none
  | finite m e =>
    if 0 ≤ e then some (m * Nat.pow 2 e.toNat)
    else if m % Nat.pow 2 (-e).toNat = 0 then some (m / Nat.pow 2 (-e).toNat)
    else none

def isZero : Binary64 → Bool
  | finite m _ => m = 0
  | notFinite => false

example : (ofDecimal false 9223372036854775 16 3).whole? = some 9223372036854774784 := by
  decide +kernel

example : (ofDecimal false 1 1 23).whole? = some 99999999999999991611392 := by decide +kernel

example : (ofDecimal true 50 2 (-1)).whole? = some (-5)
    ∧ (ofDecimal false 9999999999999999 16 (-16)).whole? = none := by decide +kernel

example : ofDecimal false 5 1 (-324) = finite 1 (-1074)
    ∧ ofDecimal false 1 1 400 = notFinite
    ∧ (ofDecimal false 1 1 (-400)).isZero = true := by decide +kernel

end Binary64

end ChipEight.Decimal
