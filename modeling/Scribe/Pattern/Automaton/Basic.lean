/-!
The room that automata over bytes take. The states are only counted, as finding a pattern does not
need them: an automaton is laid out part by part, and each function here adds a part to what has
been laid out before.
-/
namespace Scribe.Pattern

inductive Direction where
  | forward | backward
deriving DecidableEq, Repr

/-- The part of an automaton that has been laid out: states have `stateBytes` each, and links that
leave a state beside its first one take `linkBytes` more. `atChoice` tells whether the part ends in
a state that chooses between links, so that going on from it takes a link. -/
structure Automaton where
  states : Nat := 0
  linkBytes : Nat := 0
  atChoice : Bool := false
deriving DecidableEq, Repr

namespace Automaton

def stateBytes : Nat := 32

def choiceBytes : Nat := 4

def rangeBytes : Nat := 8

def mostBytes : Nat := 10 * 1024 * 1024

def bytes (a : Automaton) : Nat := stateBytes * a.states + a.linkBytes

def isTooLarge (a : Automaton) : Bool := mostBytes < a.bytes

def add (a : Automaton) (states : Nat) : Automaton :=
  { a with states := a.states + states, atChoice := false }

def addChoice (a : Automaton) : Automaton := { a.add 1 with atChoice := true }

def addLinks (a : Automaton) (n : Nat) : Automaton :=
  { a with linkBytes := a.linkBytes + choiceBytes * n }

def addRanges (a : Automaton) (n : Nat) : Automaton :=
  { a with linkBytes := a.linkBytes + rangeBytes * n }

def goOn (a : Automaton) : Automaton := if a.atChoice then a.addLinks 1 else a

/-- Takes a step `n` times, unless the automaton gets too large before. -/
def iterate (step : Automaton → Automaton) : Nat → Automaton → Automaton
  | 0, a => a
  | n + 1, a => if a.isTooLarge then a else iterate step n (step a)

def copies (part : Automaton → Automaton) (n : Nat) (a : Automaton) : Automaton :=
  match n with
  | 0 => a.add 1
  | n + 1 => iterate (fun a => part a.goOn) n (part a)

/-- A part that is passed any number of times, from `least` on. One that may take no room gets a
second choice in front when it need not be there at all. -/
def loop (part : Automaton → Automaton) (takesRoom : Bool) (least : Nat) (a : Automaton) :
    Automaton :=
  match least with
  | 0 =>
    if takesRoom then { (part a.addChoice).goOn.addLinks 1 with atChoice := true }
    else ((part a).goOn.add 3).addLinks 4
  | 1 => (part a).goOn.addChoice.addLinks 1
  | n + 1 => (part (copies part n a).goOn).goOn.addChoice.addLinks 1

/-- A part that is passed at least `least` times and up to `more` times beyond. -/
def bounded (part : Automaton → Automaton) (least more : Nat) (a : Automaton) : Automaton :=
  match least, more with
  | 0, 1 => (part a.addChoice).goOn.addLinks 2 |>.add 1
  | least, 0 => copies part least a
  | least, more =>
    let a := copies part least a
    let a := { a.add 1 with atChoice := a.atChoice }
    let last := iterate (fun a => (part a.goOn.addChoice).addLinks 2) more a
    { last.goOn with atChoice := false }

/-- Alternatives one after the other, with a state that chooses and one where they meet after the
second. -/
def choose : List (Automaton → Automaton) → Automaton → Automaton
  | first :: second :: others, a =>
    let join := fun (part : Automaton → Automaton) a => (part a).goOn.addLinks 1
    { others.foldl (fun a part => join part a) ((join second (join first a)).add 2) with
      atChoice := false }
  | [part], a => part a
  | [], a => a

end Automaton

end Scribe.Pattern
