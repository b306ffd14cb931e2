import EntityQuery.Number.Binary64

/-!
# The shortest decimal of a floating-point number

Every real in the *cell* of a number, the interval that reaches half way to each neighbour, rounds
back to it (its two ends do so iff the significand is even). `Binary64.shortest` is the decimal in
the cell on the coarsest grid of powers of ten that meets the cell: no decimal of fewer digits reads
back. Of two grid points in the cell the nearer is taken; which one an exact tie takes is left to
the format that writes the digits.
-/

namespace EntityQuery

/-- The natural `digits` scaled by `10^exponent`. -/
structure Decimal where
  digits : Nat
  exponent : Int
deriving DecidableEq, Inhabited, Repr

/-- Which of two equally near decimals is written. -/
inductive Tie
  /-- the one whose last digit is even -/
  | toEven
  /-- the larger one -/
  | up
deriving DecidableEq, Repr

/-- The interval around `middle / 4 · 2^exponent` that rounds to it, in quarters of `2^exponent`. -/
structure Cell where
  low : Nat
  middle : Nat
  high : Nat
  exponent : Int
  closed : Bool
deriving DecidableEq, Repr

namespace Cell

/-- A grid point `d · 10^k` and a bound `b` of the cell, both multiplied by what clears their
denominators. -/
def onGrid (cell : Cell) (k : Int) : Nat × Nat :=
  ((4 * Nat.pow 10 k.toNat) <<< (-cell.exponent).toNat,
    Nat.pow 10 (-k).toNat <<< cell.exponent.toNat)

/-- Whether `d · 10^k` rounds to the cell's number. -/
def holds (cell : Cell) (k : Int) (d : Nat) : Bool :=
  let (unit, scale) := cell.onGrid k
  if cell.closed then decide (cell.low * scale ≤ d * unit ∧ d * unit ≤ cell.high * scale)
  else decide (cell.low * scale < d * unit ∧ d * unit < cell.high * scale)

/-- The grid point below the cell's number at `10^k`. -/
def below (cell : Cell) (k : Int) : Nat :=
  let (unit, scale) := cell.onGrid k
  cell.middle * scale / unit

/-- Whether the grid point `d + 1` is nearer to the cell's number than `d`, its neighbour below. -/
def prefersNext (cell : Cell) (tie : Tie) (k : Int) (d : Nat) : Bool :=
  let (unit, scale) := cell.onGrid k
  match compare (2 * cell.middle * scale) ((2 * d + 1) * unit) with
  | .lt => false
  | .gt => true
  | .eq => match tie with
    | .toEven => d % 2 == 1
    | .up => true

/-- The decimal at `10^k` that reads back, if the grid meets the cell. -/
def pick? (cell : Cell) (tie : Tie) (k : Int) : Option Decimal :=
  let d := cell.below k
  match cell.holds k d, cell.holds k (d + 1) with
  | true, true => some ⟨if cell.prefersNext tie k d then d + 1 else d, k⟩
  | true, false => some ⟨d, k⟩
  | false, true => some ⟨d + 1, k⟩
  | false, false => none

/-- The first grid that meets the cell, from `10^k` downwards through `steps` finer ones. -/
def search (cell : Cell) (tie : Tie) : Nat → Int → Decimal
  | 0, k => ⟨cell.below k, k⟩
  | steps + 1, k => match cell.pick? tie k with
    | some decimal => decimal
    | none => search cell tie steps (k - 1)

end Cell

namespace Binary64

/-- The reals that round to the word, sign aside. Below a power of two the neighbours are half as
far apart, except among the smallest numbers. -/
def cell (x : Binary64) : Cell :=
  let m := x.significand
  let narrow := m == exponentPlace && decide (-1074 < x.exponent)
  ⟨4 * m - (if narrow then 1 else 2), 4 * m, 4 * m + 2, x.exponent, m % 2 == 0⟩

/-- A power of ten above the number: its bits counted at `log₁₀ 2 < 30103 / 100000`. -/
def ceilingExponent (x : Binary64) : Int :=
  ((x.significand.log2 + 1 : Nat) + x.exponent) * 30103 / 100000 + 2

/-- The decimal of fewest digits that reads back as the word, and of those the nearest to it. A
word of 53 bits is met within seventeen digits, well inside the twenty-four grids searched. -/
def shortest (tie : Tie) (x : Binary64) : Decimal :=
  if x.isZero then ⟨0, 0⟩ else x.cell.search tie 24 x.ceilingExponent

end Binary64

/-! ## Writing a decimal -/

namespace Decimal

/-- The digits of the natural. -/
def digitText (d : Decimal) : List Char := Nat.toDigits 10 d.digits

/-- Zeros. -/
def zeros (n : Nat) : List Char := List.replicate n '0'

/-- Positional writing, with `whole` after a number that has no fraction. -/
def positional (whole : String) (d : Decimal) : String :=
  let text := d.digitText
  if 0 ≤ d.exponent then String.ofList (text ++ zeros d.exponent.toNat) ++ whole
  else
    let places := (-d.exponent).toNat
    if places < text.length then
      let cut := text.length - places
      String.ofList (text.take cut ++ '.' :: text.drop cut)
    else String.ofList ('0' :: '.' :: zeros (places - text.length) ++ text)

/-- The power of ten of the leading digit. -/
def leadingExponent (d : Decimal) : Int := d.digitText.length + d.exponent - 1

/-- One digit before the point, and the power of ten with its sign. -/
def scientific (d : Decimal) : String :=
  let mantissa := match d.digitText with
    | first :: more@(_ :: _) => first :: '.' :: more
    | text => text
  let x := d.leadingExponent
  String.ofList mantissa ++ (if x < 0 then "e-" else "e+") ++ toString x.natAbs

end Decimal

/-- How a format writes floating-point numbers. -/
structure NumberLayout where
  /-- which of two equally near shortest decimals is written -/
  tie : Tie
  /-- what follows a number without a fraction in positional writing -/
  whole : String
  /-- whether a leading digit at this power of ten is written positionally -/
  positional : Int → Bool

/-- A number's text: a sign whenever its sign bit is set, and its shortest digits as laid out. -/
def NumberLayout.write (layout : NumberLayout) (x : Binary64) : String :=
  let d := x.shortest layout.tie
  let text := if layout.positional d.leadingExponent then d.positional layout.whole
    else d.scientific
  if x.isNegative then "-" ++ text else text

end EntityQuery
