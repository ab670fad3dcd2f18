import Scribe.Pattern.Escape

/-!
Classes of characters in brackets: characters, ranges, classes with names, classes within classes,
and what two of them have or do not have in common.
-/
namespace Scribe.Pattern

def levelsOver (levels : List Nat) : Nat := levels.foldl max 0 + 1

inductive SetOperator where
  | inter | diff | symmDiff
deriving DecidableEq, Repr

def SetOperator.apply : SetOperator → CharSet → CharSet → CharSet
  | inter => .inter
  | diff => .diff
  | symmDiff => .symmDiff

/-- A set with the count of levels that its text nests. -/
structure NestedSet where
  set : CharSet
  levels : Nat := 0

def NestedSet.unions (items : List NestedSet) : NestedSet :=
  match items with
  | [item] => item
  | items =>
    ⟨.unions (items.map (·.set)), if items.isEmpty then 0 else levelsOver (items.map (·.levels))⟩

def classChar (flags : Flags) (c : Char) : Option Char :=
  if flags.unicode || c.toNat < 0x80 then some c else none

def asciiClass? (cs : List Char) : Option (Bool × CharSet × List Char) := do
  let '[' :: ':' :: cs := cs | none
  let (negated, cs) := match cs with
    | '^' :: cs => (true, cs)
    | cs => (false, cs)
  let name := cs.takeWhile (· != ':')
  let ':' :: ']' :: rest := cs.drop name.length | none
  return (negated, ← CharSet.ascii? (String.ofList name), rest)

def classItem (flags : Flags) : List Char → Option (Escape × List Char)
  | [] => none
  | '\\' :: cs => readEscape flags cs
  | c :: cs => some (.literal c, cs)

/-- A character, a range or a class; a dash before a bracket or a dash makes no range. -/
def classRange (flags : Flags) (cs : List Char) : Option (CharSet × List Char) := do
  let (first, cs) ← classItem flags cs
  let alone : Option CharSet := match first with
    | .literal c => (classChar flags c).map .singleton
    | .set s => some s
    | .anchor _ => none
  match skipBlanks flags cs with
  | [] => none
  | '-' :: rest =>
    match afterDash flags rest with
    | some ']' | some '-' => return (← alone, '-' :: rest)
    | _ =>
      let (last, rest) ← classItem flags (skipBlanks flags rest)
      match first, last with
      | .literal a, .literal b => do
        let a ← classChar flags a
        let b ← classChar flags b
        guard (a ≤ b)
        return (.range a.toNat b.toNat, rest)
      | _, _ => none
  | cs => return (← alone, cs)

/-- What a bracket opens: whether the class is negated, the dashes and the closing bracket that
stand for themselves at its start, and the rest. -/
def openClass (flags : Flags) (cs : List Char) : Bool × List NestedSet × List Char :=
  let (negated, cs) := match skipBlanks flags cs with
    | '^' :: cs => (true, skipBlanks flags cs)
    | cs => (false, cs)
  let (dashes, cs) := takeSpaced flags (· == '-') cs
  match dashes, cs with
  | [], ']' :: cs => (negated, [⟨.singleton ']', 0⟩], cs)
  | _, _ => (negated, dashes.map fun _ => ⟨.singleton '-', 0⟩, cs)

/-- The rest of a class: `left` are the finished operand and the operator after it, and `items` the
last of the union read so far in front. -/
def readClass (flags : Flags) (budget : Nat) (negated : Bool)
    (left : Option (NestedSet × SetOperator)) (items : List NestedSet) (cs : List Char) :
    Option (NestedSet × List Char) :=
  match budget with
  | 0 => none
  | budget + 1 =>
    let operand := fun (_ : Unit) =>
      let right := NestedSet.unions items.reverse
      match left with
      | none => right
      | some (l, op) =>
        ⟨op.apply (foldSet flags l.set) (foldSet flags right.set),
          levelsOver [l.levels, right.levels]⟩
    let operator := fun (op : SetOperator) cs =>
      readClass flags budget negated (some (operand (), op)) [] cs
    let next := fun item cs => readClass flags budget negated left (item :: items) cs
    match skipBlanks flags cs with
    | [] => none
    | '&' :: '&' :: cs => operator .inter cs
    | '-' :: '-' :: cs => operator .diff cs
    | '~' :: '~' :: cs => operator .symmDiff cs
    | ']' :: cs =>
      let whole := operand ()
      (finishSet flags negated whole.set).map (⟨·, levelsOver [whole.levels]⟩, cs)
    | '[' :: cs =>
      match asciiClass? ('[' :: cs) with
      | some (negated, s, cs) =>
        match finishSet flags negated s with
        | some s => next ⟨s, 0⟩ cs
        | none => none
      | none =>
        let (innerNegated, innerItems, cs) := openClass flags cs
        match readClass flags budget innerNegated none innerItems cs with
        | some (item, cs) => next item cs
        | none => none
    | cs =>
      match classRange flags cs with
      | some (s, cs) => next ⟨s, 0⟩ cs
      | none => none

end Scribe.Pattern
