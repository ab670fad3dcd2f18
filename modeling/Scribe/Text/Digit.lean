/-!
Digits, and what they spell.
-/
namespace Scribe.Text

def digitValue? (c : Char) : Option Nat :=
  if c.isDigit then some (c.toNat - '0'.toNat)
  else if 'a' ≤ c ∧ c ≤ 'f' then some (c.toNat - 'a'.toNat + 10)
  else if 'A' ≤ c ∧ c ≤ 'F' then some (c.toNat - 'A'.toNat + 10)
  else none

def isHexDigit (c : Char) : Bool := (digitValue? c).isSome

def spell (base : Nat) (digits : List Char) : Nat :=
  digits.foldl (fun n c => base * n + (digitValue? c).getD 0) 0

def codePoint? (digits : List Char) : Option Char :=
  let n := spell 16 digits
  if !digits.isEmpty && digits.all isHexDigit && n.isValidChar then some (Char.ofNat n) else none

end Scribe.Text
