import Scribe.Pattern.Basic

/-!
Finding a pattern in a text. A pattern laid over a text maps the positions where a match may start
to those where it may end, so that no order of search is needed; a set of positions is a number
whose bit `i` stands for the position before character `i`.
-/
namespace Scribe.Pattern

inductive Laid where
  | nothing
  /-- Goes on by one character from the positions of a set. -/
  | pass (positions : Nat)
  /-- Stays at the positions of a set. -/
  | hold (positions : Nat)
  | seq (p q : Laid)
  | either (p q : Laid)
  | repeated (p : Laid) (least : Nat) (greatest : Option Nat)
deriving Repr

def positions (answers : List Bool) : Nat :=
  answers.foldr (fun answer rest => 2 * rest + answer.toNat) 0

def neighbours (before : Option Char) : List Char → List (Option Char × Option Char)
  | [] => [(before, none)]
  | c :: cs => (before, some c) :: neighbours (some c) cs

def lay (text : List Char) : Pattern → Laid
  | nothing => .nothing
  | literal cs =>
    cs.foldr (fun c rest => .seq (.pass (positions (text.map (· == c)))) rest) .nothing
  | set s => .pass (positions (text.map s.contains))
  | anchor a => .hold (positions ((neighbours none text).map fun n => a.holds n.1 n.2))
  | group _ p => p.lay text
  | seq p q => .seq (p.lay text) (q.lay text)
  | either p q => .either (p.lay text) (q.lay text)
  | repeated p _ least greatest => .repeated (p.lay text) least greatest

/-- The positions after a step has been taken `n` times; once a step changes nothing, none does. -/
def after (step : Nat → Nat) : Nat → Nat → Nat
  | 0, ps => ps
  | n + 1, ps =>
    let next := step ps
    if next = ps then ps else after step n next

/-- The positions where matches from `starts` end, in a text of `size` characters. More rounds than
there are positions reach nothing new, so counts are cut there. -/
def Laid.ends (size : Nat) : Laid → Nat → Nat
  | nothing, starts => starts
  | pass m, starts => 2 * (starts &&& m)
  | hold m, starts => starts &&& m
  | seq p q, starts => q.ends size (p.ends size starts)
  | either p q, starts => p.ends size starts ||| q.ends size starts
  | repeated p least greatest, starts =>
    let most := size + 1
    let more := match greatest with
      | some g => min (g - least) most
      | none => most
    after (fun ps => ps ||| p.ends size ps) more (after (p.ends size) (min least most) starts)

/-- Whether the pattern matches anywhere in a text. -/
def isFoundIn (p : Pattern) (text : String) : Bool :=
  let cs := text.toList
  (p.lay cs).ends cs.length (positions (List.replicate (cs.length + 1) true)) ≠ 0

end Scribe.Pattern
