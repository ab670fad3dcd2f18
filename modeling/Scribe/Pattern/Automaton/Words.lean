import Scribe.Pattern.Automaton.Basic
import Scribe.Text.Utf8

/-!
Words that a choice is between as a part of an automaton: words that begin alike share their states.
-/
namespace Scribe.Pattern.Automaton

def wordBytes (d : Direction) (cs : List Char) : List Nat :=
  let bytes := cs.flatMap fun c => Text.Utf8.encode c.toNat
  match d with
  | .forward => bytes
  | .backward => bytes.reverse

/-- The words between those that are at their end. -/
def stretches : List (List Nat) → List (List (List Nat))
  | [] => [[]]
  | [] :: words => [] :: stretches words
  | word :: words =>
    match stretches words with
    | stretch :: rest => (word :: stretch) :: rest
    | [] => [[word]]

def byFirst (words : List (List Nat)) : List (List (List Nat)) :=
  let firsts := (words.filterMap List.head?).eraseDups
  firsts.map fun b => words.filterMap fun
    | c :: rest => if b = c then some rest else none
    | [] => none

/-- A tree of words. A node chooses between its stretches, with a way to the end between them, and
each stretch tells the bytes apart that its words go on with; where all words end there is no node.
Words of up to `depth` bytes are laid out. -/
def tree : Nat → List (List Nat) → Automaton → Automaton
  | 0, _, a => a
  | depth + 1, words, a =>
    if words.all List.isEmpty then a
    else
      let ended := (words.head?.any List.isEmpty : Bool)
      let rest := words.dropWhile List.isEmpty
      let (stretches, ends) := (stretches rest, (rest.filter List.isEmpty).length + ended.toNat)
      let a := stretches.foldl (fun a stretch =>
        match byFirst stretch with
        | [] => a
        | groups =>
          let a := (groups.foldl (fun a group => tree depth group a) a).add 1
          (if groups.length = 1 then a else a.addRanges groups.length).addLinks 1) a
      (a.add 1).addLinks ends

end Scribe.Pattern.Automaton
