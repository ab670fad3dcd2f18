import Scribe.Text.Blank
import Scribe.Text.CaseFold
import Scribe.Text.Utf8
import Scribe.Text.Word

/-!
Sets of characters, as patterns write them. A set is its ranges of code points, ascending and with
gaps between them.
-/
namespace Scribe

structure CharSet where
  ranges : Text.Ranges
deriving DecidableEq, Repr

namespace CharSet

open Text (Ranges)

def contains (s : CharSet) (c : Char) : Bool := s.ranges.contains c

def hasPoint (s : CharSet) (n : Nat) : Bool := s.ranges.any fun r => r.1 ≤ n && n ≤ r.2

def empty : CharSet := ⟨[]⟩

def range (first last : Nat) : CharSet := ⟨[(first, last)]⟩

def singleton (c : Char) : CharSet := range c.toNat c.toNat

/-- Puts a range before ranges that begin no earlier; those that it reaches become part of it. -/
def joinRange (first last : Nat) : Ranges → Ranges
  | [] => [(first, last)]
  | r :: rs => if r.1 ≤ last + 1 then joinRange first (max last r.2) rs else (first, last) :: r :: rs

def ofRanges (ranges : Ranges) : CharSet :=
  ⟨(ranges.mergeSort fun r s => r.1 ≤ s.1).foldr (fun r done => joinRange r.1 r.2 done) []⟩

def union (s t : CharSet) : CharSet := ofRanges (s.ranges ++ t.ranges)

def unions (ss : List CharSet) : CharSet := ofRanges (ss.flatMap (·.ranges))

def greatest : Nat := 0x10FFFF

/-- The code points of characters go on after the surrogates. -/
def next (n : Nat) : Nat := if n = 0xD7FF then 0xE000 else n + 1

def previous (n : Nat) : Nat := if n = 0xE000 then 0xD7FF else n - 1

def gaps (first : Nat) : Ranges → Ranges
  | [] => if first ≤ greatest then [(first, greatest)] else []
  | r :: rs =>
    if first < r.1 then (first, previous r.1) :: gaps (next r.2) rs else gaps (next r.2) rs

def complement (s : CharSet) : CharSet := ⟨gaps 0 s.ranges⟩

def inter (s t : CharSet) : CharSet := (s.complement.union t.complement).complement

def diff (s t : CharSet) : CharSet := s.inter t.complement

def symmDiff (s t : CharSet) : CharSet := (s.diff t).union (t.diff s)

def isAscii (s : CharSet) : Bool := s.ranges.all (·.2 ≤ 0x7F)

def toAscii (s : CharSet) : CharSet := s.inter (range 0 0x7F)

/-- With every member also the characters that are paired with it, directly or by way of a common
partner. -/
def closeUnder (pairs : List (Nat × Nat)) (s : CharSet) : CharSet :=
  let folded := ofRanges (pairs.filterMap fun p =>
    if s.hasPoint p.1 || s.hasPoint p.2 then some (p.2, p.2) else none)
  let sources := pairs.filterMap fun p => if folded.hasPoint p.2 then some (p.1, p.1) else none
  ofRanges (s.ranges ++ folded.ranges ++ sources)

def anyCase (s : CharSet) : CharSet := s.closeUnder Text.foldPairs

def asciiPairs : List (Nat × Nat) := (List.range 26).map fun i => (0x41 + i, 0x61 + i)

def anyAsciiCase (s : CharSet) : CharSet := s.closeUnder asciiPairs

def word : CharSet := ⟨Text.wordRanges⟩

def decimal : CharSet := ⟨Text.decimalRanges⟩

def blank : CharSet := ⟨Text.blankRanges⟩

def all : CharSet := range 0 greatest

def ascii? (name : String) : Option CharSet :=
  let digit := (0x30, 0x39)
  let upper := (0x41, 0x5A)
  let lower := (0x61, 0x7A)
  let ranges? : Option Ranges := match name with
    | "alnum" => some [digit, upper, lower]
    | "alpha" => some [upper, lower]
    | "ascii" => some [(0, 0x7F)]
    | "blank" => some [(9, 9), (0x20, 0x20)]
    | "cntrl" => some [(0, 0x1F), (0x7F, 0x7F)]
    | "digit" => some [digit]
    | "graph" => some [(0x21, 0x7E)]
    | "lower" => some [lower]
    | "print" => some [(0x20, 0x7E)]
    | "punct" => some [(0x21, 0x2F), (0x3A, 0x40), (0x5B, 0x60), (0x7B, 0x7E)]
    | "space" => some [(9, 0xD), (0x20, 0x20)]
    | "upper" => some [upper]
    | "word" => some [digit, upper, (0x5F, 0x5F), lower]
    | "xdigit" => some [digit, (0x41, 0x46), (0x61, 0x66)]
    | _ => none
  ranges?.map .mk

end CharSet

end Scribe
