/-!
# 64-bit binary floating-point numbers

A number is its 64-bit word: a sign, eleven bits of exponent and 52 bits of fraction. Everything is
decided by exact arithmetic on the word read as an integer:

* `order` places the words on the integers so that numeric order is integer order, the two zeros
  falling together;
* `nearest` rounds a fraction of naturals to the closest word, an exact half going to the even one.
-/

namespace EntityQuery

/-- A 64-bit binary floating-point number, as its word. -/
structure Binary64 where
  bits : UInt64
deriving DecidableEq, Inhabited, Repr

namespace Binary64

/-- The place of the sign bit, `2^63`. -/
abbrev signPlace : Nat := 0x8000000000000000

/-- The place of the lowest exponent bit, `2^52`: also that of the leading significand bit, which a
word leaves out. -/
abbrev exponentPlace : Nat := 0x10000000000000

/-- Whether the sign bit is set. -/
def isNegative (x : Binary64) : Bool := decide (signPlace ≤ x.bits.toNat)

/-- The word without its sign bit. -/
def magnitude (x : Binary64) : Nat := x.bits.toNat % signPlace

/-- The word of the given sign and magnitude. -/
def ofMagnitude (negative : Bool) (magnitude : Nat) : Binary64 :=
  ⟨UInt64.ofNat (magnitude % signPlace + if negative then signPlace else 0)⟩

/-- The magnitude of infinity, one above that of the largest finite number. -/
def infinity : Nat := 2047 * exponentPlace

/-- Whether the word denotes a number. -/
def isFinite (x : Binary64) : Bool := decide (x.magnitude < infinity)

/-- Whether the word is one of the two zeros. -/
def isZero (x : Binary64) : Bool := x.magnitude == 0

/-- The place of a word in the numeric order: magnitudes grow with the numbers they denote, and a
negative word lies as far below zero as its positive twin lies above. -/
def order (x : Binary64) : Int := if x.isNegative then -(x.magnitude : Int) else x.magnitude

/-- The natural `m` for which the word denotes `m · 2^exponent`, sign aside. -/
def significand (x : Binary64) : Nat :=
  if x.magnitude < exponentPlace then x.magnitude else exponentPlace + x.magnitude % exponentPlace

/-- The power of two that scales `significand`. -/
def exponent (x : Binary64) : Int :=
  if x.magnitude < exponentPlace then -1074 else (x.magnitude / exponentPlace : Nat) - 1075

/-- The quotient to the nearest natural, an exact half going to the even one. -/
def divToEven (num den : Nat) : Nat :=
  let q := num / den
  let twice := 2 * (num % den)
  if den < twice ∨ (twice = den ∧ q % 2 = 1) then q + 1 else q

/-- `num / den` as a multiple of `2^scale`, to the nearest natural. -/
def scaledToEven (num den : Nat) (scale : Int) : Nat :=
  divToEven (num <<< (-scale).toNat) (den <<< scale.toNat)

/-- The largest scale, but none below that of the smallest numbers, at which `num / den` keeps its
53 significant bits. -/
def scaleOf (num den : Nat) : Int :=
  let guess : Int := (num.log2 : Int) - den.log2 - 52
  let keeps := den <<< (52 + guess).toNat ≤ num <<< (-(52 + guess)).toNat
  max (if keeps then guess else guess - 1) (-1074)

/-- The magnitude closest to `num / den`; beyond the largest number it is infinity. Adding a
53-bit significand to its scale's place lets a carry move on into the exponent by itself. -/
def nearestMagnitude (num den : Nat) : Nat :=
  if num = 0 then 0
  else
    let scale := scaleOf num den
    min ((scale + 1074).toNat * exponentPlace + scaledToEven num den scale) infinity

/-- The word closest to `num / den` under a sign. -/
def nearest (negative : Bool) (num den : Nat) : Binary64 :=
  ofMagnitude negative (nearestMagnitude num den)

/-- The word closest to an integer. -/
def ofInt (n : Int) : Binary64 := nearest (decide (n < 0)) n.natAbs 1

/-- The rational `significand · 2^exponent` as numerator and denominator. -/
def fraction (x : Binary64) : Nat × Nat :=
  (x.significand <<< x.exponent.toNat, 1 <<< (-x.exponent).toNat)

/-- The product, rounded once. -/
def mul (x y : Binary64) : Binary64 :=
  let (a, b) := x.fraction
  let (c, d) := y.fraction
  nearest (x.isNegative != y.isNegative) (a * c) (b * d)

/-- The quotient by a nonzero number, rounded once. -/
def div (x y : Binary64) : Binary64 :=
  let (a, b) := x.fraction
  let (c, d) := y.fraction
  nearest (x.isNegative != y.isNegative) (a * d) (b * c)

/-- The word closest to a power of ten. -/
def tenPow (n : Nat) : Binary64 := nearest false (Nat.pow 10 n) 1

/-- Divides by `10^n`, in steps of `10^308` where the power itself is no number; once the quotient
has sunk to zero the rest of the steps is moot. -/
def divTenPow (x : Binary64) (n : Nat) : Binary64 :=
  if n ≤ 308 then x.div (tenPow n)
  else if x.isZero then x
  else divTenPow (x.div (tenPow 308)) (n - 308)
termination_by n
decreasing_by omega

/-- The number that `digits · 10^exponent` is read as: the digits are rounded first, then scaled by
a power of ten. Nothing is read beyond the largest number. -/
def ofScientific? (negative : Bool) (digits : Nat) (exponent : Int) : Option Binary64 :=
  let base := nearest negative digits 1
  if exponent < 0 then some (base.divTenPow (-exponent).toNat)
  else if 308 < exponent then if base.isZero then some base else none
  else
    let scaled := base.mul (tenPow exponent.toNat)
    if scaled.isFinite then some scaled else none

end Binary64

end EntityQuery
