import SolFront.Decimal.Shortest

/-!
# The text of a float

Values from `10 ^ -5` up to below `10 ^ 16` are written positionally, with `.0` after a whole
number; all others as a digit, the other digits after a point, `e`, and the exponent with its sign.
-/

namespace SolFront.Decimal

/-- The exponents of the leading digit that are written positionally: from `least` to below
`bound`. -/
structure Style where
  least : Int
  bound : Int

/-- How documents and messages write floats. -/
def document : Style := ⟨-5, 16⟩

/-- The mantissa and exponent of a finite float without its sign. -/
def decompose (x : Float) : Nat × Int :=
  let bits : Nat := x.toBits.toNat % Nat.pow 2 63
  let exponent : Nat := bits / Nat.pow 2 52
  let fraction : Nat := bits % Nat.pow 2 52
  if exponent = 0 then (fraction, -1074) else (fraction + Nat.pow 2 52, (exponent : Int) - 1075)

/-- Whether the float has its sign bit set. -/
def isNegative (x : Float) : Bool :=
  x.toBits.toNat ≥ Nat.pow 2 63

/-- The digits of a whole number with a point `places` digits from the left. -/
def positional (digits : List Char) (exponent : Int) : List Char :=
  if exponent < 0 then ['0', '.'] ++ List.replicate (-exponent - 1).toNat '0' ++ digits
  else
    let whole := exponent.toNat + 1
    let padded := digits ++ List.replicate (whole - digits.length) '0'
    let fraction := padded.drop whole
    padded.take whole ++ '.' :: if fraction.isEmpty then ['0'] else fraction

/-- A leading digit, the others after a point, and the exponent with its sign. -/
def exponential (digits : List Char) (exponent : Int) : List Char :=
  let fraction := digits.drop 1
  digits.take 1 ++ (if fraction.isEmpty then [] else '.' :: fraction) ++
    ['e', if exponent < 0 then '-' else '+'] ++ Nat.toDigits 10 exponent.natAbs

/-- The text of a finite float: the shortest digits that read back. -/
def text (style : Style) (x : Float) : List Char :=
  let (m, q) := decompose x
  let sign := if isNegative x then ['-'] else []
  if m = 0 then sign ++ ['0', '.', '0']
  else
    let s := shortest m q
    let digits := Nat.toDigits 10 s.digits
    let exponent := s.exponent + digits.length - 1
    sign ++ if style.least ≤ exponent && exponent < style.bound then positional digits exponent
      else exponential digits exponent

end SolFront.Decimal
