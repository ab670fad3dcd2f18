/-!
Decimal numbers: exact values, and numerals, the ways to write them down.
-/
namespace Scribe

/-- The number `± digits · 10 ^ exponent`. -/
structure Decimal where
  negative : Bool := false
  digits : Nat
  exponent : Int
deriving DecidableEq, Repr

structure Fraction where
  count : Nat
  value : Nat
deriving DecidableEq, Repr

/-- A number as it is written: `-12.050e+3`. -/
structure Numeral where
  negative : Bool := false
  whole : Nat
  fraction : Option Fraction := none
  exponent : Option Int := none
deriving DecidableEq, Repr

def paddedDigits (width n : Nat) : String :=
  let digits := Nat.toDigits 10 n
  String.ofList (List.replicate (width - digits.length) '0' ++ digits)

namespace Numeral

def isInteger (n : Numeral) : Bool := n.fraction.isNone && n.exponent.isNone

def integer (n : Numeral) : Int := if n.negative then -n.whole else n.whole

def ofInt (i : Int) : Numeral := { negative := i < 0, whole := i.natAbs }

def toDecimal (n : Numeral) : Decimal :=
  let (count, value) := match n.fraction with
    | some f => (f.count, f.value)
    | none => (0, 0)
  { negative := n.negative
    digits := n.whole * Nat.pow 10 count + value
    exponent := n.exponent.getD 0 - count }

/-- `plus` stands before an exponent that is not negative. -/
def toText (plus : String) (n : Numeral) : String :=
  let sign := if n.negative then "-" else ""
  let fraction := match n.fraction with
    | some f => "." ++ paddedDigits f.count f.value
    | none => ""
  let exponent := match n.exponent with
    | some e => (if e < 0 then "e-" else "e" ++ plus) ++ paddedDigits 1 e.natAbs
    | none => ""
  sign ++ paddedDigits 1 n.whole ++ fraction ++ exponent

theorem integer_ofInt (i : Int) : (ofInt i).integer = i := by
  simp only [integer, ofInt, decide_eq_true_eq]
  split <;> omega

end Numeral

/-- Where a style stops writing numbers with a plain point. The position of a decimal is the power
of ten just above it: `position 9.5 = 1`. -/
structure NumeralStyle where
  leastPosition : Int
  greatestPosition : Int

namespace NumeralStyle

/-- The number `0.d₁d₂… · 10 ^ position`, whose `count` digits spell `digits`. -/
def write (style : NumeralStyle) (negative : Bool) (digits count : Nat) (position : Int) : Numeral :=
  if position < style.leastPosition || style.greatestPosition < position then
    { negative, whole := digits / Nat.pow 10 (count - 1)
      fraction := if count = 1 then none else some ⟨count - 1, digits % Nat.pow 10 (count - 1)⟩
      exponent := some (position - 1) }
  else if position ≤ 0 then
    { negative, whole := 0, fraction := some ⟨count + position.natAbs, digits⟩ }
  else if count ≤ position.toNat then
    { negative, whole := digits * Nat.pow 10 (position.toNat - count), fraction := some ⟨1, 0⟩ }
  else
    let after := count - position.toNat
    let unit := Nat.pow 10 after
    { negative, whole := digits / unit, fraction := some ⟨after, digits % unit⟩ }

end NumeralStyle

end Scribe
