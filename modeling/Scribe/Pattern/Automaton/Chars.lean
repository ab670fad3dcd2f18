import Scribe.Pattern.Automaton.Basic
import Scribe.Pattern.CharSet
import Std.Data.HashMap

/-!
Sets of characters as parts of an automaton. States with the same arrows are laid out once, as far
as a table of limited size remembers them.
-/
namespace Scribe.Pattern.Automaton

structure Arrow where
  range : Nat × Nat
  target : Nat
deriving DecidableEq, Repr

/-- The slot of a table for what words say: they are stirred one by one into a number of 64 bits. -/
def slot (capacity : Nat) (words : List Nat) : Nat :=
  let stir := fun (h : UInt64) (w : Nat) => (h ^^^ w.toUInt64) * 1099511628211
  (words.foldl stir 14695981039346656037).toNat % capacity

/-- States already laid out, by the arrows that leave them. A slot holds one state, so that the
later of two with the same slot is the one that is found. -/
structure Known where
  automaton : Automaton
  table : Std.HashMap Nat (List Arrow × Nat) := {}

def Known.find? (k : Known) (slot : Nat) (arrows : List Arrow) : Option Nat :=
  match k.table[slot]? with
  | some (found, state) => if found = arrows then some state else none
  | none => none

/-- The state with given arrows, which is laid out if it is not known; `ranges` of its ranges take
room of their own. -/
def Known.state (k : Known) (slot : Nat) (arrows : List Arrow) (ranges : Nat) : Nat × Known :=
  match k.find? slot arrows with
  | some state => (state, k)
  | none =>
    let state := k.automaton.states
    (state, ⟨(k.automaton.add 1).addRanges ranges, k.table.insert slot (arrows, state)⟩)

/-- The state from which sequences of byte ranges lead to `target`. Sequences that follow each
other share the state after an equal first range; `depth` bounds their length. -/
def forwardState (target : Nat) : Nat → List Text.Ranges → Known → Nat × Known
  | 0, _, k => (target, k)
  | depth + 1, sequences, k =>
    if sequences.all List.isEmpty then (target, k)
    else
      let groups := sequences.splitBy fun s t => s.head? == t.head?
      let (arrows, k) := groups.foldl (fun (arrows, k) group =>
        let (next, k) := forwardState target depth (group.map List.tail) k
        match group.head?.bind List.head? with
        | some range => (⟨range, next⟩ :: arrows, k)
        | none => (arrows, k)) ([], k)
      let arrows := arrows.reverse
      let words := arrows.flatMap fun a => [a.range.1, a.range.2, a.target]
      k.state (slot 10000 words) arrows arrows.length

def backwardState (target : Nat) (sequence : Text.Ranges) (k : Known) : Nat × Known :=
  sequence.foldl (fun (state, k) range =>
    k.state (slot 1000 [state, range.1, range.2]) [⟨range, state⟩] 0) (target, k)

def ofSequences (d : Direction) (sequences : List Text.Ranges) (a : Automaton) : Automaton :=
  match d with
  | .forward => (forwardState a.states 4 sequences { automaton := a.add 1 }).2.automaton
  | .backward =>
    let k : Known := { automaton := a.add 2 }
    let k := sequences.foldl (fun k s => (backwardState (a.states + 1) s k).2) k
    k.automaton.addLinks sequences.length

def ofAscii (s : CharSet) (a : Automaton) : Automaton := (a.add 2).addRanges s.ranges.length

end Scribe.Pattern.Automaton
