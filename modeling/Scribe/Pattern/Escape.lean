import Scribe.Pattern.Flags
import Scribe.Text.Digit

/-!
What stands for a character, a set or a condition after a backslash.
-/
namespace Scribe.Pattern

def isMeta (c : Char) : Bool := "\\.+*?()|[]\x7b\x7d^$#&-~".toList.contains c

def isEscapable (c : Char) : Bool :=
  isMeta c || (c.toNat < 0x80 && !c.isAlphanum && c != '<' && c != '>')

inductive Escape where
  | literal (c : Char)
  | set (s : CharSet)
  | anchor (a : Anchor)

def takeDigits (flags : Flags) : Nat → List Char → Option (List Char × List Char)
  | 0, cs => some ([], cs)
  | n + 1, cs =>
    match skipBlanks flags cs with
    | c :: cs => do
      guard (Text.isHexDigit c)
      let (digits, rest) ← takeDigits flags n cs
      return (c :: digits, rest)
    | [] => none

/-- A code point in braces, or with a fixed count of digits. Without Unicode two digits are a byte,
which beyond ASCII is no character. -/
def codePointEscape (flags : Flags) (count : Nat) (cs : List Char) : Option (Char × List Char) :=
  match skipBlanks flags cs with
  | '\x7b' :: cs => do
    let (digits, rest) := takeSpaced flags Text.isHexDigit (skipBlanks flags cs)
    let '\x7d' :: rest := rest | none
    return (← Text.codePoint? digits, rest)
  | cs => do
    let (digits, rest) ← takeDigits flags count cs
    let c ← Text.codePoint? digits
    guard (flags.unicode || count ≠ 2 || c.toNat < 0x80)
    return (c, rest)

def wordEdge (flags : Flags) (e : WordEdge) : Escape := .anchor (.word e !flags.unicode)

/-- What `b` stands for: an edge of a word, or the one whose name follows in braces; braces that
hold no name are left for a count. -/
def boundary (flags : Flags) (cs : List Char) : Option (Escape × List Char) :=
  let isNamed := fun (c : Char) => c.isAlpha || c == '-'
  match cs with
  | '\x7b' :: rest =>
    match skipBlanks flags rest with
    | [] => none
    | c :: rest =>
      if isNamed c then do
        let (name, rest) := takeSpaced flags isNamed (c :: rest)
        let '\x7d' :: rest := rest | none
        let e ← match String.ofList name with
          | "start" => some WordEdge.start
          | "end" => some .finish
          | "start-half" => some .startHalf
          | "end-half" => some .finishHalf
          | _ => none
        return (wordEdge flags e, rest)
      else some (wordEdge flags .boundary, cs)
  | cs => some (wordEdge flags .boundary, cs)

/-- An escape after its backslash. Digits would refer back to groups, which no pattern can. -/
def readEscape (flags : Flags) : List Char → Option (Escape × List Char)
  | [] => none
  | c :: cs =>
    let literal := fun (c : Char) => some (Escape.literal c, cs)
    let set := fun (s : CharSet) => some (Escape.set (asciiOnly flags s), cs)
    let without := fun (s : CharSet) => (complement? flags s).map (Escape.set ·, cs)
    let edge := fun (e : WordEdge) => some (wordEdge flags e, cs)
    match c with
    | 'x' => (codePointEscape flags 2 cs).map fun (c, cs) => (.literal c, cs)
    | 'u' => (codePointEscape flags 4 cs).map fun (c, cs) => (.literal c, cs)
    | 'U' => (codePointEscape flags 8 cs).map fun (c, cs) => (.literal c, cs)
    | 'd' => set .decimal
    | 's' => set .blank
    | 'w' => set .word
    | 'D' => without .decimal
    | 'S' => without .blank
    | 'W' => without .word
    | 'a' => literal '\x07'
    | 'f' => literal '\x0c'
    | 't' => literal '\t'
    | 'n' => literal '\n'
    | 'r' => literal '\r'
    | 'v' => literal '\x0b'
    | 'A' => some (.anchor .textStart, cs)
    | 'z' => some (.anchor .textEnd, cs)
    | 'b' => boundary flags cs
    | 'B' => edge .noBoundary
    | '<' => edge .start
    | '>' => edge .finish
    | c => if isEscapable c then literal c else none

end Scribe.Pattern
