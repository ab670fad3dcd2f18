import Scribe.Pattern.CharSet

/-!
Patterns in their simplest form. The constructors below keep it: parts of a sequence are no
sequences and not empty, neighbouring literals are one, alternatives of single characters are one
set, and what all alternatives begin with stands before them.
-/
namespace Scribe

inductive WordEdge where
  | boundary | noBoundary | start | finish | startHalf | finishHalf
deriving DecidableEq, Repr

inductive Anchor where
  | textStart | textEnd | lineStart | lineEnd | lineStartCrlf | lineEndCrlf
  /-- Only letters, digits and the underscore of ASCII make words if `ascii` is set. -/
  | word (edge : WordEdge) (ascii : Bool)
deriving DecidableEq, Repr

/-- `repeated p _ least greatest` is `p` between `least` and `greatest` times, or with no greatest
count any number of times from `least` on. A lazy one is found in the same texts. -/
inductive Pattern where
  | nothing
  | literal (cs : List Char)
  | set (s : CharSet)
  | anchor (a : Anchor)
  | group (number : Nat) (p : Pattern)
  | seq (p q : Pattern)
  | either (p q : Pattern)
  | repeated (p : Pattern) (isLazy : Bool) (least : Nat) (greatest : Option Nat)
deriving DecidableEq, Repr

namespace WordEdge

def holds (e : WordEdge) (before after : Bool) : Bool :=
  match e with
  | boundary => before != after
  | noBoundary => before == after
  | start => !before && after
  | finish => before && !after
  | startHalf => !before
  | finishHalf => !after

end WordEdge

namespace Anchor

def holds (a : Anchor) (before after : Option Char) : Bool :=
  match a with
  | textStart => before.isNone
  | textEnd => after.isNone
  | lineStart => before.isNone || before == some '\n'
  | lineEnd => after.isNone || after == some '\n'
  | lineStartCrlf =>
    before.isNone || before == some '\n' || (before == some '\r' && after != some '\n')
  | lineEndCrlf =>
    after.isNone || after == some '\r' || (after == some '\n' && before != some '\r')
  | word edge ascii =>
    let isWord := fun (c : Char) => Text.isWord c && (!ascii || c.toNat < 0x80)
    edge.holds (before.any isWord) (after.any isWord)

end Anchor

namespace Pattern

def byteCount (cs : List Char) : Nat := cs.foldl (fun n c => n + c.utf8Size) 0

/-- The least count of bytes in a match; none for a pattern that may never match. -/
def minLength : Pattern → Option Nat
  | nothing | anchor _ => some 0
  | literal cs => some (byteCount cs)
  | set s => s.ranges.head?.map fun r => (Text.Utf8.encode r.1).length
  | group _ p => p.minLength
  | seq p q => return (← p.minLength) + (← q.minLength)
  | either p q => return min (← p.minLength) (← q.minLength)
  | repeated p _ least _ => p.minLength.map (· * least)

def maxLength : Pattern → Option Nat
  | nothing | anchor _ => some 0
  | literal cs => some (byteCount cs)
  | set s => s.ranges.getLast?.map fun r => (Text.Utf8.encode r.2).length
  | group _ p => p.maxLength
  | seq p q => return (← p.maxLength) + (← q.maxLength)
  | either p q => return max (← p.maxLength) (← q.maxLength)
  | repeated p _ _ greatest => return (← p.maxLength) * (← greatest)

/-- Whether every match starts where the text does, as far as the parts in front tell. -/
def startsText : Pattern → Bool
  | anchor a => a = .textStart
  | group _ p => p.startsText
  | seq p q => p.startsText || (p.maxLength = some 0 && q.startsText)
  | either p q => p.startsText && q.startsText
  | repeated p _ least _ => 0 < least && p.startsText
  | _ => false

def endsText : Pattern → Bool
  | anchor a => a = .textEnd
  | group _ p => p.endsText
  | seq p q => q.endsText || (p.endsText && q.maxLength = some 0)
  | either p q => p.endsText && q.endsText
  | repeated p _ least _ => 0 < least && p.endsText
  | _ => false

/-! Sets and literals. -/

def ofSet (s : CharSet) : Pattern :=
  match s.ranges with
  | [(first, last)] => if first = last then literal [Char.ofNat first] else set s
  | _ => set s

/-! Sequences. -/

def parts : Pattern → List Pattern
  | nothing => []
  | seq p q => p :: q.parts
  | p => [p]

def ofParts : List Pattern → Pattern
  | [] => nothing
  | [p] => p
  | p :: ps => seq p (ofParts ps)

def joinLiterals : List Pattern → List Pattern
  | [] => []
  | p :: ps =>
    match p, joinLiterals ps with
    | literal cs, literal ds :: qs => literal (cs ++ ds) :: qs
    | p, qs => p :: qs

def concat (ps : List Pattern) : Pattern := ofParts (joinLiterals (ps.flatMap parts))

/-! Alternatives. -/

def branches : Pattern → List Pattern
  | either p q => p :: q.branches
  | p => [p]

def ofBranches : List Pattern → Pattern
  | [] => set .empty
  | [p] => p
  | p :: ps => either p (ofBranches ps)

def single? : Pattern → Option Char
  | literal [c] => some c
  | _ => none

def set? : Pattern → Option CharSet
  | set s => some s
  | _ => none

def commonCount : List Pattern → List Pattern → Nat
  | p :: ps, q :: qs => if p = q then commonCount ps qs + 1 else 0
  | _, _ => 0

/-- How many parts all the alternatives begin with; none if one of them is no sequence. -/
def sharedCount (alternatives : List Pattern) : Nat :=
  match alternatives.map parts with
  | first :: others =>
    if (first :: others).all (2 ≤ ·.length) then
      others.foldl (fun n ps => min n (commonCount first ps)) first.length
    else 0
  | [] => 0

def weight : Pattern → Nat
  | nothing | literal _ | set _ | anchor _ => 1
  | group _ p => p.weight + 1
  | seq p q => p.weight + q.weight + 1
  | either p q => p.weight + q.weight + 1
  | repeated p _ _ _ => p.weight + 1

/-- A choice, with at most `budget` times a shared start taken out. -/
def choice (budget : Nat) (ps : List Pattern) : Pattern :=
  let ps := ps.flatMap branches
  match ps with
  | [] | [_] => ofBranches ps
  | first :: _ =>
    match ps.mapM single?, ps.mapM set? with
    | some cs, _ => ofSet (CharSet.ofRanges (cs.map fun c => (c.toNat, c.toNat)))
    | _, some ss => ofSet (CharSet.unions ss)
    | none, none =>
      match budget, sharedCount ps with
      | 0, _ | _, 0 => ofBranches ps
      | budget + 1, n =>
        concat (first.parts.take n ++ [choice budget (ps.map fun p => concat (p.parts.drop n))])

/-- One pattern or another; each shared start that is taken out makes the rest lighter. -/
def oneOf (ps : List Pattern) : Pattern := choice (ps.foldl (fun n p => n + p.weight) 0) ps

/-! Repetitions. -/

/-- A pattern several times over. What takes no room is there once as well as often. -/
def times (p : Pattern) (isLazy : Bool) (least : Nat) (greatest : Option Nat) : Pattern :=
  let (least, greatest) :=
    if p.maxLength = some 0 then (min least 1, some (min 1 (greatest.getD 1))) else (least, greatest)
  if greatest = some 0 then nothing
  else if least = 1 ∧ greatest = some 1 then p
  else repeated p isLazy least greatest

end Pattern

end Scribe
