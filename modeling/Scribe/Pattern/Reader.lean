import Scribe.Pattern.Class
import Scribe.Pattern.Room
import Scribe.Text.Alphabetic
import Scribe.Text.Numeric

/-!
Reading patterns from their text. A pattern that cannot be read gives nothing; why is not told.
Flags set within a group last until its end, names of groups are given once, and what nests deeper
than `mostLevels` is refused, as is a pattern whose automata have no room.
-/
namespace Scribe.Pattern

structure State where
  flags : Flags := {}
  groupNames : List String := []
  groupCount : Nat := 0

structure Nested where
  pattern : Pattern
  levels : Nat := 0

def mostLevels : Nat := 250

/-! Counts, flags and groups. -/

def maxCount : Nat := 0xFFFFFFFF

/-- A count with blanks around it; none when there is no digit. -/
def readCount (flags : Flags) (cs : List Char) : Option (Option Nat × List Char) :=
  let (digits, rest) := takeSpaced flags Char.isDigit (cs.dropWhile Text.isBlank)
  let rest := (takeSpaced flags Text.isBlank rest).2
  if digits.isEmpty then some (none, rest)
  else
    let n := Text.spell 10 digits
    if n ≤ maxCount then some (some n, rest) else none

/-- A count in braces, after the opening one. The greatest count may be left out, but then no blank
stands in its place. -/
def readBounds (flags : Flags) (cs : List Char) : Option (Nat × Option Nat × List Char) := do
  let (least, cs) ← readCount flags (skipBlanks flags cs)
  let least ← least
  match cs with
  | ',' :: cs =>
    match skipBlanks flags cs with
    | '\x7d' :: cs => return (least, none, cs)
    | cs =>
      let (greatest, cs) ← readCount flags cs
      let greatest ← greatest
      let '\x7d' :: cs := cs | none
      guard (least ≤ greatest)
      return (least, some greatest, cs)
  | '\x7d' :: cs => return (least, some least, cs)
  | _ => none

def readFlags (flags : Flags) (value : Bool) (seen : List Char) :
    List Char → Option (Flags × List Char)
  | [] => none
  | c :: cs =>
    if c == ':' || c == ')' then
      if seen.head? == some '-' then none else some (flags, c :: cs)
    else if seen.contains c then none
    else
      match c with
      | '-' => readFlags flags false ('-' :: seen) cs
      | 'i' => readFlags { flags with ignoreCase := value } value (c :: seen) cs
      | 'm' => readFlags { flags with multiLine := value } value (c :: seen) cs
      | 's' => readFlags { flags with dotAll := value } value (c :: seen) cs
      | 'x' => readFlags { flags with verbose := value } value (c :: seen) cs
      | 'u' => readFlags { flags with unicode := value } value (c :: seen) cs
      | 'R' => readFlags { flags with crlf := value } value (c :: seen) cs
      | 'U' => readFlags { flags with lazyFirst := value } value (c :: seen) cs
      | _ => none

def readName (used : List String) (cs : List Char) : Option (String × List Char) := do
  let name := cs.takeWhile (· != '>')
  let _ :: rest := cs.drop name.length | none
  let c :: others := name | none
  guard (c == '_' || Text.isAlphabetic c)
  guard (others.all fun c =>
    Text.isAlphabetic c || Text.isNumeric c || c == '_' || c == '.' || c == '[' || c == ']')
  let name := String.ofList name
  guard (!used.contains name)
  return (name, rest)

inductive Opening where
  /-- `(?flags)`, which is no group. -/
  | setFlags (flags : Flags)
  /-- The state within a group and the number of one that captures. -/
  | group (state : State) (number : Option Nat)

def Opening.capture (state : State) (names : List String) : Opening :=
  let number := state.groupCount + 1
  .group { state with groupNames := names, groupCount := number } (some number)

/-- The part of a group before its contents; looking ahead or behind is refused. -/
def readOpening (state : State) (cs : List Char) : Option (Opening × List Char) :=
  match cs with
  | '?' :: '=' :: _ | '?' :: '!' :: _ | '?' :: '<' :: '=' :: _ | '?' :: '<' :: '!' :: _ => none
  | '?' :: 'P' :: '<' :: cs | '?' :: '<' :: cs => do
    let (name, cs) ← readName state.groupNames cs
    return (.capture state (name :: state.groupNames), cs)
  | '?' :: cs => do
    let (flags, rest) ← readFlags state.flags true [] cs
    match rest with
    | ')' :: rest => if rest.length + 1 = cs.length then none else return (.setFlags flags, rest)
    | _ :: rest => return (.group { state with flags } none, rest)
    | [] => none
  | cs => some (.capture state state.groupNames, cs)

/-! Parts of a pattern. -/

def ofChar (flags : Flags) (c : Char) : Pattern := ofSet (foldSet flags (.singleton c))

def ofEscape (flags : Flags) : Escape → Pattern
  | .literal c => ofChar flags c
  | .set s => ofSet s
  | .anchor a => .anchor a

def Nested.ofParts (parts : List (Option Nested)) : Nested :=
  let levels := parts.map fun p => (p.map (·.levels)).getD 0
  ⟨concat (parts.filterMap fun p => p.map (·.pattern)),
    if 2 ≤ parts.length then levelsOver levels else levels.foldl max 0⟩

def Nested.ofBranches (branches : List Nested) : Nested :=
  match branches with
  | [branch] => branch
  | branches => ⟨oneOf (branches.map (·.pattern)), levelsOver (branches.map (·.levels))⟩

def Nested.group (number : Option Nat) (n : Nested) : Nested :=
  ⟨match number with
    | some number => .group number n.pattern
    | none => n.pattern, n.levels + 1⟩

def lazyMark (flags : Flags) : List Char → Bool × List Char
  | '?' :: cs => (!flags.lazyFirst, cs)
  | cs => (flags.lazyFirst, cs)

/-- The contents of a group, up to its closing bracket or the end of the text, which are left. The
first of `parts` is the last one read, to which a repetition applies; none stands for flags, which
cannot be repeated. -/
def readGroup (budget : Nat) (state : State) (done : List Nested) (parts : List (Option Nested))
    (cs : List Char) : Option (Nested × State × List Char) :=
  match budget with
  | 0 => none
  | budget + 1 =>
    let flags := state.flags
    let branch := fun (_ : Unit) => Nested.ofParts parts.reverse
    let goOn := fun state parts (p : Nested) cs =>
      if p.levels ≤ mostLevels then readGroup budget state done (some p :: parts) cs else none
    let next := goOn state parts
    let finish := fun cs => some (.ofBranches (branch () :: done).reverse, state, cs)
    let repeatLast := fun (least : Nat) (greatest : Option Nat) cs =>
      match parts with
      | some p :: others =>
        let (isLazy, cs) := lazyMark flags cs
        goOn state others ⟨p.pattern.times isLazy least greatest, p.levels + 1⟩ cs
      | _ => none
    match skipBlanks flags cs with
    | [] => finish []
    | ')' :: cs => finish (')' :: cs)
    | '|' :: cs => readGroup budget state (branch () :: done) [] cs
    | '(' :: cs =>
      match readOpening state (skipBlanks flags cs) with
      | none => none
      | some (.setFlags flags, cs) => readGroup budget { state with flags } done (none :: parts) cs
      | some (.group inner number, cs) =>
        match readGroup budget inner [] [] cs with
        | some (p, after, ')' :: cs) => goOn { after with flags } parts (p.group number) cs
        | _ => none
    | '[' :: cs =>
      let (negated, items, cs) := openClass flags cs
      match readClass flags budget negated none items cs with
      | some (s, cs) => next ⟨ofSet s.set, s.levels⟩ cs
      | none => none
    | '?' :: cs => repeatLast 0 (some 1) cs
    | '*' :: cs => repeatLast 0 none cs
    | '+' :: cs => repeatLast 1 none cs
    | '\x7b' :: cs =>
      match readBounds flags cs with
      | some (least, greatest, cs) => repeatLast least greatest (skipBlanks flags cs)
      | none => none
    | '\\' :: cs =>
      match readEscape flags cs with
      | some (e, cs) => next ⟨ofEscape flags e, 0⟩ cs
      | none => none
    | '.' :: cs =>
      match dot flags with
      | some s => next ⟨ofSet s, 0⟩ cs
      | none => none
    | '^' :: cs => next ⟨.anchor (lineStart flags), 0⟩ cs
    | '$' :: cs => next ⟨.anchor (lineEnd flags), 0⟩ cs
    | c :: cs => next ⟨ofChar flags c, 0⟩ cs

def ofText? (text : String) : Option Pattern := do
  let cs := text.toList
  let (p, _, []) ← readGroup (2 * cs.length + 2) {} [] [] cs | none
  guard (p.levels ≤ mostLevels && p.pattern.fits)
  return p.pattern

end Scribe.Pattern
