import Scribe.Number.Binary

/-!
The shortest decimal of a binary number: the fewest digits whose nearest number of the layout is
the number itself, and of those the nearest. Reading back is not argued for but tried, with the
reader that reads every numeral.
-/
namespace Scribe

/-- Where a number lies exactly between two shortest decimals. -/
inductive TieBreak where
  | even | up
deriving DecidableEq, Repr

/-- `digits` has `count` digits and stands for `0.d₁d₂… · 10 ^ position`. -/
structure DigitRun where
  digits : Nat
  count : Nat
  position : Int
deriving DecidableEq, Repr

namespace DigitRun

def toDecimal (r : DigitRun) (negative : Bool) : Decimal :=
  { negative, digits := r.digits, exponent := r.position - r.count }

end DigitRun

namespace Binary

variable {l : Layout}

private def scaleTen (num den : Nat) (power : Int) : Nat × Nat :=
  if power < 0 then (num * Nat.pow 10 power.natAbs, den) else (num, den * Nat.pow 10 power.natAbs)

def decimalPosition (num den : Nat) : Int :=
  let guess := (floorLog2 num den * 30103).fdiv 100000 + 2
  let reaches := fun (p : Int) => let (n, d) := scaleTen num den p; d ≤ n
  if reaches guess then guess + 1
  else if reaches (guess - 1) then guess
  else if reaches (guess - 2) then guess - 1
  else guess - 2

/-- The better of the two decimals of `count` digits around a number, if one reads back. -/
def neighbour? (tie : TieBreak) (x : Binary l) (num den : Nat) (position : Int) (count : Nat) :
    Option DigitRun :=
  let (n, d) := scaleTen num den (position - count)
  let run := fun digits =>
    if digits < Nat.pow 10 count then DigitRun.mk digits count position
    else DigitRun.mk (digits / 10) count (position + 1)
  let below := run (n / d)
  let above := run (n / d + 1)
  let readsBack := fun r => decide (ofDecimal l (r.toDecimal x.negative) = x)
  let twice := 2 * (n % d)
  let preferBelow := twice < d || (twice == d && (match tie with
    | .even => (n / d) % 2 == 0
    | .up => false))
  match readsBack below, readsBack above with
  | true, true => some (if preferBelow then below else above)
  | true, false => some below
  | false, true => some above
  | false, false => none

def exactRun (x : Binary l) : DigitRun :=
  let (digits, scale) :=
    if x.exponent < 0 then (x.significand * Nat.pow 5 x.exponent.natAbs, x.exponent.natAbs)
    else (x.significand * Nat.pow 2 x.exponent.natAbs, 0)
  let count := (Nat.toDigits 10 digits).length
  ⟨digits, count, count - scale⟩

/-- The shortest digits of a finite number above zero in magnitude. -/
def shortestRun (tie : TieBreak) (x : Binary l) : DigitRun :=
  let (num, den) := x.ratio
  let position := decimalPosition num den
  let counts := (List.range (l.precision / 3 + 2)).map (· + 1)
  (counts.findSome? (neighbour? tie x num den position)).getD x.exactRun

def toNumeral (style : NumeralStyle) (tie : TieBreak) (x : Binary l) : Numeral :=
  if x.rank = 0 then { negative := x.negative, whole := 0, fraction := some ⟨1, 0⟩ }
  else
    let run := x.shortestRun tie
    style.write x.negative run.digits run.count run.position

end Binary

end Scribe
