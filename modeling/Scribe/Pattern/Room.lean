import Scribe.Pattern.Automaton.Chars
import Scribe.Pattern.Automaton.Words
import Scribe.Pattern.Basic

/-!
The room of a pattern. A pattern is refused when one of its two automata, which read texts forwards
and backwards, outgrows `Automaton.mostBytes`.
-/
namespace Scribe.Pattern

open Automaton

def words? : Pattern → Option (List (List Char))
  | literal cs => some [cs]
  | either (literal cs) q => q.words?.map (cs :: ·)
  | _ => none

def part (d : Direction) (p : Pattern) (alternatives : List (Automaton → Automaton)) :
    Automaton → Automaton :=
  match p.words? with
  | some (w :: v :: words) =>
    let words := (w :: v :: words).map (wordBytes d)
    let longest := (words.map List.length).foldl max 0
    fun a => tree longest words (a.add 1)
  | _ => choose alternatives

/-- What the alternatives of a pattern add to an automaton; a pattern that is no choice is its only
alternative. -/
def alternatives (d : Direction) : Pattern → List (Automaton → Automaton)
  | nothing => [(·.add 1)]
  | literal cs =>
    let size := byteCount cs
    [(·.add size)]
  | set s =>
    if s.isAscii then [ofAscii s]
    else
      let sequences := s.ranges.flatMap fun r => Text.Utf8.sequences r.1 r.2
      [ofSequences d sequences]
  | anchor _ => [(·.add 1)]
  | group _ p =>
    let inner := part d p (p.alternatives d)
    match d with
    | .forward => [fun a => (inner (a.add 1)).goOn.add 1]
    | .backward => [inner]
  | seq p q =>
    let first := part d p (p.alternatives d)
    let second := part d q (q.alternatives d)
    match d with
    | .forward => [fun a => second (first a).goOn]
    | .backward => [fun a => first (second a).goOn]
  | either p q => part d p (p.alternatives d) :: q.alternatives d
  | repeated p _ least greatest =>
    let inner := part d p (p.alternatives d)
    match greatest with
    | some g => [bounded inner least (g - least)]
    | none => [loop inner (p.minLength.any (0 < ·)) least]

/-- An automaton before its pattern. One that may start anywhere first passes any bytes. -/
def Automaton.start (anchored : Bool) : Automaton :=
  if anchored then Automaton.add {} 1 else ((Automaton.add {} 3).addRanges 1).addLinks 2

/-- The automaton of a pattern. One that reads forwards also has a state on each side of the whole
match, and either one has a state for having found it. -/
def automaton (d : Direction) (p : Pattern) : Automaton :=
  let whole := part d p (p.alternatives d)
  match d with
  | .forward => ((whole ((Automaton.start p.startsText).add 1)).goOn.add 1).add 1
  | .backward => (whole (Automaton.start p.endsText)).goOn.add 1

def fits (p : Pattern) : Bool :=
  !(p.automaton .forward).isTooLarge && !(p.automaton .backward).isTooLarge

end Scribe.Pattern
