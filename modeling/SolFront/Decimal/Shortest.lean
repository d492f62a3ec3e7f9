/-!
# Shortest decimal digits

A finite positive binary float `m * 2 ^ q` is written with the fewest decimal digits that read back
as the same float, and among those with the digits nearest to it. A grid of step `10 ^ k` has such
a decimal exactly if the multiple of the step just below the value, or the one just above it, lies
in the interval of numbers that round to the float; the coarsest such grid is the answer.
-/

namespace SolFront.Decimal

/-- A positive rational as numerator over denominator. -/
structure Ratio where
  num : Nat
  den : Nat

namespace Ratio

/-- The number `m * 2 ^ q`. -/
def ofBinary (m : Nat) (q : Int) : Ratio :=
  if 0 ≤ q then ⟨m * Nat.pow 2 q.toNat, 1⟩ else ⟨m, Nat.pow 2 (-q).toNat⟩

/-- The number in units of `10 ^ k`. -/
def inUnits (r : Ratio) (k : Int) : Ratio :=
  if 0 ≤ k then ⟨r.num, r.den * Nat.pow 10 k.toNat⟩ else ⟨r.num * Nat.pow 10 (-k).toNat, r.den⟩

/-- Compares the number with a natural number. -/
def compareNat (r : Ratio) (n : Nat) : Ordering :=
  compare r.num (n * r.den)

end Ratio

/-- The numbers that round to one float: the ends, and whether they belong to it. -/
structure Interval where
  low : Ratio
  high : Ratio
  closed : Bool

/-- The numbers that round to the float `m * 2 ^ q`, halves going to the even mantissa. Below a
power of two the floats lie twice as close. -/
def Interval.ofFloat (m : Nat) (q : Int) : Interval where
  low :=
    if m = Nat.pow 2 52 && q > -1074 then .ofBinary (4 * m - 1) (q - 2)
    else .ofBinary (2 * m - 1) (q - 1)
  high := .ofBinary (2 * m + 1) (q - 1)
  closed := m % 2 == 0

/-- Whether the interval holds `n * 10 ^ k`. -/
def Interval.holds (i : Interval) (n : Nat) (k : Int) : Bool :=
  let above := match (i.low.inUnits k).compareNat n with
    | .lt => true
    | .eq => i.closed
    | .gt => false
  let below := match (i.high.inUnits k).compareNat n with
    | .gt => true
    | .eq => i.closed
    | .lt => false
  above && below

/-- A decimal `digits * 10 ^ exponent`. -/
structure Scientific where
  digits : Nat
  exponent : Int
  deriving DecidableEq, Repr

/-- The multiple of `10 ^ k` in the interval that is nearest to the value, if there is one. Of two
equally near the one with the even last digit counts. -/
def onGrid? (i : Interval) (value : Ratio) (k : Int) : Option Scientific :=
  let v := value.inUnits k
  let n := v.num / v.den
  let twice := 2 * (v.num % v.den)
  let up := twice > v.den || (twice == v.den && n % 2 == 1)
  let (near, far) := if up then (n + 1, n) else (n, n + 1)
  if 0 < near && i.holds near k then some ⟨near, k⟩
  else if 0 < far && i.holds far k then some ⟨far, k⟩
  else none

/-- The first grid with a hit among `count` grids of ever smaller step. -/
def searchGrids (i : Interval) (value : Ratio) : Nat → Int → Option Scientific
  | 0, _ => none
  | count + 1, k => onGrid? i value k <|> searchGrids i value count (k - 1)

/-- Removes trailing zeros from the digits, at most `count` of them. -/
def Scientific.trim : Nat → Scientific → Scientific
  | 0, s => s
  | count + 1, s =>
    if s.digits % 10 = 0 then trim count ⟨s.digits / 10, s.exponent + 1⟩ else s

/-- An upper bound on the decimal exponent of the leading digit of `m * 2 ^ q`. -/
def leadingExponent (m : Nat) (q : Int) : Int :=
  ((m.log2 : Int) + q) * 30103 / 100000 + 1

/-- The shortest decimal that reads back as `m * 2 ^ q`, for a positive `m` below `2 ^ 53`. Twenty
grids reach seventeen digits, which always read back. -/
def shortest (m : Nat) (q : Int) : Scientific :=
  match searchGrids (.ofFloat m q) (.ofBinary m q) 20 (leadingExponent m q) with
  | some s => s.trim 17
  | none => ⟨0, 0⟩

end SolFront.Decimal
