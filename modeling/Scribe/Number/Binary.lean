import Scribe.Number.Numeral

/-!
Binary floating-point numbers in exact arithmetic. A number is its sign and its rank: the place of
its magnitude among all magnitudes of the layout, zero first. Ranks are in the order of the values,
so the nearest number to a quotient is found by rounding a quotient of natural numbers.
-/
namespace Scribe

/-- How many bits the significand has, the leading one included, and how many the exponent. -/
structure Layout where
  precision : Nat
  exponentBits : Nat
deriving DecidableEq, Repr

namespace Layout

def binary32 : Layout := ⟨24, 8⟩

def binary64 : Layout := ⟨53, 11⟩

def leastExponent (l : Layout) : Int := 3 - Nat.pow 2 (l.exponentBits - 1) - l.precision

/-- The number of significands that share an exponent. -/
def bucket (l : Layout) : Nat := Nat.pow 2 (l.precision - 1)

/-- The rank of infinity; the ranks above it are not numbers. -/
def infinityRank (l : Layout) : Nat := (Nat.pow 2 l.exponentBits - 1) * l.bucket

end Layout

structure Binary (l : Layout) where
  negative : Bool := false
  rank : Nat
deriving DecidableEq, Repr

/-- The quotient rounded to the nearest natural number, a half to the even neighbour. -/
def roundDiv (num den : Nat) : Nat :=
  let quotient := num / den
  let twice := 2 * (num % den)
  if twice < den || (twice == den && quotient % 2 == 0) then quotient else quotient + 1

namespace Binary

variable {l : Layout}

def isFinite (x : Binary l) : Bool := x.rank < l.infinityRank

def isNaN (x : Binary l) : Bool := l.infinityRank < x.rank

/-- Numerical equality: the two zeros are equal, and what is not a number equals nothing. -/
instance : BEq (Binary l) where
  beq x y := !x.isNaN && x.rank == y.rank && (x.rank == 0 || x.negative == y.negative)

def significand (x : Binary l) : Nat :=
  if x.rank < l.bucket then x.rank else l.bucket + x.rank % l.bucket

/-- A finite number is `± significand · 2 ^ exponent`. -/
def exponent (x : Binary l) : Int := l.leastExponent + (x.rank / l.bucket - 1 : Nat)

def ratio (x : Binary l) : Nat × Nat :=
  if x.exponent < 0 then (x.significand, Nat.pow 2 x.exponent.natAbs)
  else (x.significand * Nat.pow 2 x.exponent.natAbs, 1)

/-- The greatest `e` with `2 ^ e ≤ num / den`, for a quotient above zero. -/
def floorLog2 (num den : Nat) : Int :=
  let guess : Int := num.log2 - den.log2
  let scale := Nat.pow 2 guess.natAbs
  let reached := if guess < 0 then den ≤ num * scale else den * scale ≤ num
  if reached then guess else guess - 1

/-- The rank nearest to a quotient, a tie going to the even rank; infinity takes all beyond. -/
def nearestRank (l : Layout) (num den : Nat) : Nat :=
  if num = 0 then 0
  else
    let unit := max (floorLog2 num den - (l.precision - 1 : Nat)) l.leastExponent
    let units := if unit < 0 then roundDiv (num * Nat.pow 2 unit.natAbs) den
      else roundDiv num (den * Nat.pow 2 unit.natAbs)
    min ((unit - l.leastExponent).toNat * l.bucket + units) l.infinityRank

/-- The number nearest to a decimal. Exponents that lie far outside the layout are settled without
computing their power of ten. -/
def ofDecimal (l : Layout) (d : Decimal) : Binary l :=
  let rank :=
    if d.digits = 0 then 0
    else if d.exponent > Nat.pow 2 l.exponentBits then l.infinityRank
    else if d.digits.log2 + 1 + 3 * d.exponent < l.leastExponent - 1 then 0
    else if d.exponent < 0 then nearestRank l d.digits (Nat.pow 10 d.exponent.natAbs)
    else nearestRank l (d.digits * Nat.pow 10 d.exponent.natAbs) 1
  { negative := d.negative, rank }

def convert (target : Layout) (x : Binary l) : Binary target :=
  if x.isFinite then
    let (num, den) := x.ratio
    { negative := x.negative, rank := nearestRank target num den }
  else { negative := x.negative, rank := target.infinityRank + (x.rank - l.infinityRank) }

end Binary

abbrev Binary32 := Binary .binary32

abbrev Binary64 := Binary .binary64

end Scribe
