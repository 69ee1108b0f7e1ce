import ChartLowering.Binary64.Basic

/-
  The shortest decimal text of a double-precision number.

  The reals that round to `m · 2^e` form an interval, closed iff `m` is even. The first grid of
  1, 2, … 17 digits that has a point in that interval gives the digits: of two points the nearer,
  of two equally near the even one. All bounds are integers, in units of a quarter of `2^e`.
-/

namespace ChartLowering.Binary64

/-- Digits and the place of the decimal point: `0.d₁d₂… · 10^point`. -/
structure Decimal where
  digits : List Char
  point : Int
deriving Repr, DecidableEq

/-- A positive number with its rounding interval, as integers over one denominator. -/
structure Interval where
  low : Nat
  value : Nat
  high : Nat
  den : Nat
  closed : Bool

/-- The interval of `m · 2^e`. Below a power of two the neighbour is half as far away. -/
def interval (m : Nat) (e : Int) : Interval :=
  let gapBelow := if m = Nat.pow 2 52 ∧ minExponent < e then 1 else 2
  let shift : Int := e - 2
  let up := if 0 ≤ shift then Nat.pow 2 shift.toNat else 1
  let den := if 0 ≤ shift then 1 else Nat.pow 2 (-shift).toNat
  ⟨(4 * m - gapBelow) * up, 4 * m * up, (4 * m + 2) * up, den, m % 2 == 0⟩

/-- Whether `n · 10^k` lies in the interval. -/
def Interval.has (i : Interval) (n : Nat) (k : Int) : Bool :=
  let up := if 0 ≤ k then Nat.pow 10 k.toNat else 1
  let down := if 0 ≤ k then 1 else Nat.pow 10 (-k).toNat
  let point := n * up * i.den
  if i.closed then i.low * down ≤ point && point ≤ i.high * down
  else i.low * down < point && point < i.high * down

/-- The quotient and remainder of the value by `10^k`, with the divisor. -/
def Interval.divide (i : Interval) (k : Int) : Nat × Nat × Nat :=
  let num := if 0 ≤ k then i.value else i.value * Nat.pow 10 (-k).toNat
  let div := if 0 ≤ k then i.den * Nat.pow 10 k.toNat else i.den
  (num / div, num % div, div)

/-- The point of the grid `10^k` to show, if the interval has one. -/
def Interval.pick (i : Interval) (k : Int) : Option Nat :=
  let (q, r, div) := i.divide k
  match i.has q k, i.has (q + 1) k with
  | true, true =>
    some (if 2 * r < div ∨ (2 * r = div ∧ q % 2 = 0) then q else q + 1)
  | true, false => some q
  | false, true => some (q + 1)
  | false, false => none

/-- The place of the first digit: the least `p` with the value below `10^p`. The search starts
from an estimate that is too small by at most two. -/
def firstPlace (i : Interval) : Int :=
  let estimate : Int := ((i.value.log2 : Int) - i.den.log2 - 1) * 30103 / 100000
  let below (p : Int) : Bool := (i.divide p).1 == 0
  if below estimate then estimate
  else if below (estimate + 1) then estimate + 1
  else if below (estimate + 2) then estimate + 2
  else estimate + 3

/-- The first grid with a point in the interval, at most `fuel` grids from `count` digits on. -/
def search (i : Interval) (place : Int) : Nat → Nat → Nat × Int
  | 0, count => (((i.divide (place - count)).1), place - count)
  | fuel + 1, count =>
    match i.pick (place - count) with
    | some n => (n, place - count)
    | none => search i place fuel (count + 1)

/-- Digits without trailing zeros. -/
def trimZeros (ds : List Char) : List Char := (ds.reverse.dropWhile (· == '0')).reverse

/-- The shortest digits that read back as the positive number `m · 2^e`. -/
def shortest (m : Nat) (e : Int) : Decimal :=
  let i := interval m e
  let (n, k) := search i (firstPlace i) 17 1
  let ds := Nat.toDigits 10 n
  ⟨trimZeros ds, ds.length + k⟩

/-- How a number is laid out: exponents `low ≤ e < high` are written positionally. -/
structure Layout where
  low : Int
  high : Int
  exponentWidth : Nat

/-- Numbers in a specification are positional from `1e-4` up to `1e16`; an exponent has a sign and
at least two digits. -/
def Layout.plain : Layout := ⟨-4, 16, 2⟩

def exponentText (l : Layout) (e : Int) : List Char :=
  let digits := Nat.toDigits 10 e.natAbs
  'e' :: (if e < 0 then '-' else '+') ::
    (List.replicate (l.exponentWidth - digits.length) '0' ++ digits)

/-- The text of a decimal; a whole number keeps one zero after the point. -/
def Decimal.text (l : Layout) (d : Decimal) : List Char :=
  let e := d.point - 1
  if l.low ≤ e ∧ e < l.high then
    if d.point ≤ 0 then
      '0' :: '.' :: (List.replicate (-d.point).toNat '0' ++ d.digits)
    else
      let whole := d.digits.take d.point.toNat
      let zeros := List.replicate (d.point.toNat - whole.length) '0'
      let rest := d.digits.drop d.point.toNat
      whole ++ zeros ++ '.' :: (if rest.isEmpty then ['0'] else rest)
  else
    match d.digits with
    | [] => []
    | c :: [] => c :: exponentText l e
    | c :: rest => c :: '.' :: (rest ++ exponentText l e)

/-- The text of a number. Infinities and `nan` are written as words. -/
def text : Binary64 → String
  | .nan _ => "NaN"
  | .infinity negative => if negative then "-Infinity" else "Infinity"
  | .finite negative m e =>
    let body := if m = 0 then ['0', '.', '0'] else (shortest m e).text .plain
    String.ofList (if negative then '-' :: body else body)

end ChartLowering.Binary64
