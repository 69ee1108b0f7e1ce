/-
  Double-precision numbers in exact arithmetic.

  A finite number is `± mantissa · 2^exponent` in its one normal form: the mantissa has 53 bits, or
  the exponent is the least one, -1074. `ofRatio` rounds a quotient to the nearest such number, a
  tie to the even mantissa, and overflows to infinity. Comparison with integers is exact. What is no
  number can be there more than once: `nan` objects are told apart by a number of their own, which
  counts where a list or an object asks whether it holds the very same object.
-/

namespace ChartLowering

/-- A double-precision number. -/
inductive Binary64 where
  | finite (negative : Bool) (mantissa : Nat) (exponent : Int)
  | infinity (negative : Bool)
  | nan (object : Nat)
deriving Repr, DecidableEq, Inhabited

namespace Binary64

/-- The exponent of the subnormal numbers. -/
def minExponent : Int := -1074

/-- The exponent of the largest finite numbers. -/
def maxExponent : Int := 971

def zero (negative : Bool) : Binary64 := .finite negative 0 minExponent

/-- The integer nearest to a quotient; a half goes to the even neighbour. -/
def roundDiv (num den : Nat) : Nat :=
  let q := num / den
  let r := num % den
  if den < 2 * r ∨ (2 * r = den ∧ q % 2 = 1) then q + 1 else q

/-- The quotient `num / (den · 2^e)`, as numerator and denominator. -/
def scale (num den : Nat) (e : Int) : Nat × Nat :=
  if 0 ≤ e then (num, den * Nat.pow 2 e.toNat) else (num * Nat.pow 2 (-e).toNat, den)

/-- The exponent at which the quotient has 53 bits before the point, or the least exponent. -/
def exponentFor (num den : Nat) : Int :=
  let e : Int := max minExponent ((num.log2 : Int) - den.log2 - 53)
  let (n, d) := scale num den e
  if n / d < Nat.pow 2 53 then e else e + 1

/-- The number nearest to `± num / den`. -/
def ofRatio (negative : Bool) (num den : Nat) : Binary64 :=
  if num = 0 then zero negative
  else
    let e := exponentFor num den
    let (n, d) := scale num den e
    let m := roundDiv n d
    let (m, e) := if m = Nat.pow 2 53 then (Nat.pow 2 52, e + 1) else (m, e)
    if maxExponent < e then .infinity negative else .finite negative m e

/-- The number nearest to `± digits · 10^exponent`. A magnitude that is far out of range is decided
by the place of its first digit. -/
def ofDecimal (negative : Bool) (digits : Nat) (exponent : Int) : Binary64 :=
  let place : Int := (Nat.toDigits 10 digits).length + exponent
  if digits = 0 then zero negative
  else if 400 < place then .infinity negative
  else if place < -400 then zero negative
  else if 0 ≤ exponent then ofRatio negative (digits * Nat.pow 10 exponent.toNat) 1
  else ofRatio negative digits (Nat.pow 10 (-exponent).toNat)

/-- The number nearest to an integer; none if the integer is out of range. -/
def ofInt? (n : Int) : Option Binary64 :=
  match ofRatio (decide (n < 0)) n.natAbs 1 with
  | .infinity _ => none
  | x => some x

/-- Whether the number is that integer. -/
def equalsInt (x : Binary64) (n : Int) : Bool :=
  match x with
  | .finite negative m e =>
    let (num, den) := if 0 ≤ e then (m * Nat.pow 2 e.toNat, 1) else (m, Nat.pow 2 (-e).toNat)
    num == n.natAbs * den && (n == 0 || negative == decide (n < 0))
  | _ => false

def isZero : Binary64 → Bool
  | .finite _ m _ => m == 0
  | _ => false

/-- Whether `m · 2^e` and `n · 2^f` are the same number. -/
def sameMagnitude (m : Nat) (e : Int) (n : Nat) (f : Int) : Bool :=
  m * Nat.pow 2 (e - min e f).toNat == n * Nat.pow 2 (f - min e f).toNat

/-- Numeric equality: the two zeros are equal, and `nan` equals nothing, itself neither. -/
def same : Binary64 → Binary64 → Bool
  | .finite s m e, .finite t n f => sameMagnitude m e n f && (m == 0 || s == t)
  | .infinity s, .infinity t => s == t
  | _, _ => false

/-- Above zero; false of `nan`. -/
def isPositive : Binary64 → Bool
  | .finite negative m _ => !negative && m != 0
  | .infinity negative => !negative
  | .nan _ => false

end Binary64

end ChartLowering
