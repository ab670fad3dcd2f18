import Scribe.Number.Binary

/-!
Reading numerals by scaling: the leading digits that fit a word, times or over a power of ten. Each
step rounds, so the number read is the nearest to the numeral or a close neighbour of it.
-/
namespace Scribe

namespace Binary

variable {l : Layout}

def infinity (l : Layout) (negative : Bool) : Binary l := { negative, rank := l.infinityRank }

def mul (x y : Binary l) : Binary l :=
  let (a, b) := x.ratio
  let (c, d) := y.ratio
  { negative := x.negative != y.negative, rank := nearestRank l (a * c) (b * d) }

def div (x y : Binary l) : Binary l :=
  let (a, b) := x.ratio
  let (c, d) := y.ratio
  { negative := x.negative != y.negative, rank := nearestRank l (a * d) (b * c) }

end Binary

/-- A word and the power of ten that it is a multiple of. -/
structure Scaled where
  significand : Nat := 0
  exponent : Int := 0
deriving DecidableEq, Repr

namespace Scaled

def hasRoom (significand digit : Nat) : Bool := significand * 10 + digit < UInt64.size

/-- Digits before the point: once one finds no room, it and all after it only scale. -/
def addWhole (s : Scaled) : List Nat → Scaled
  | [] => s
  | d :: ds =>
    if hasRoom s.significand d then addWhole { s with significand := s.significand * 10 + d } ds
    else { s with exponent := s.exponent + (ds.length + 1) }

/-- Digits after the point: once one finds no room, it and all after it are passed over. -/
def addFraction (s : Scaled) : List Nat → Scaled
  | [] => s
  | d :: ds =>
    if hasRoom s.significand d then addFraction ⟨s.significand * 10 + d, s.exponent - 1⟩ ds
    else s

def digits (width n : Nat) : List Nat :=
  (paddedDigits width n).toList.map fun c => c.toNat - '0'.toNat

def ofNumeral (n : Numeral) : Scaled :=
  let s := addWhole {} (digits 1 n.whole)
  let s := match n.fraction with
    | some f => s.addFraction (digits f.count f.value)
    | none => s
  { s with exponent := s.exponent + n.exponent.getD 0 }

def greatestPower : Nat := 308

def powerOfTen (n : Nat) : Binary64 := .ofDecimal _ { digits := 1, exponent := n }

/-- A number over a power of ten of any size, divided in steps until nothing is left of it. -/
def scaleDown (x : Binary64) (power : Nat) : Binary64 :=
  if power ≤ greatestPower then x.div (powerOfTen power)
  else if x.rank = 0 then x
  else scaleDown (x.div (powerOfTen greatestPower)) (power - greatestPower)
termination_by power
decreasing_by simp only [greatestPower] at *; omega

def toBinary64? (negative : Bool) (s : Scaled) : Option Binary64 :=
  let x : Binary64 := .ofDecimal _ { digits := s.significand, exponent := 0 }
  let scaled :=
    if s.exponent < 0 then scaleDown x s.exponent.natAbs
    else if s.exponent.natAbs ≤ greatestPower then x.mul (powerOfTen s.exponent.natAbs)
    else if x.rank = 0 then x
    else .infinity _ false
  if scaled.isFinite then some { scaled with negative } else none

end Scaled

def Numeral.toBinary64? (n : Numeral) : Option Binary64 :=
  (Scaled.ofNumeral n).toBinary64? n.negative

end Scribe
