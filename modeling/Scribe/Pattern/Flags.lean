import Scribe.Pattern.Basic

/-!
What a text of a pattern means depends on flags that are set within it: which characters are
passed over, which belong to a class, and where lines end.
-/
namespace Scribe.Pattern

structure Flags where
  ignoreCase : Bool := false
  multiLine : Bool := false
  dotAll : Bool := false
  /-- White space and comments between the parts of a pattern are passed over. -/
  verbose : Bool := false
  unicode : Bool := true
  /-- A carriage return and a newline, or either alone, end a line. -/
  crlf : Bool := false
  /-- A repetition is lazy unless it is marked. -/
  lazyFirst : Bool := false
deriving DecidableEq, Repr

/-! Blanks and comments. -/

def skipBlanks (flags : Flags) (cs : List Char) : List Char :=
  if flags.verbose then go false cs else cs
where
  go : Bool → List Char → List Char
    | _, [] => []
    | true, c :: cs => go (c != '\n') cs
    | false, '#' :: cs => go true cs
    | false, c :: cs => if Text.isBlank c then go false cs else c :: cs

/-- The character after a dash that decides whether the dash makes a range. Blanks are passed over
in verbose text, and of a comment the first character that is not blank is taken; if there is
neither, the blank right after the dash. -/
def afterDash (flags : Flags) (cs : List Char) : Option Char :=
  if flags.verbose then
    match cs.dropWhile Text.isBlank with
    | '#' :: comment => (comment.dropWhile Text.isBlank).head? <|> cs.head?
    | c :: _ => some c
    | [] => cs.head?
  else cs.head?

def takeSpaced (flags : Flags) (isKind : Char → Bool) (cs : List Char) : List Char × List Char :=
  go false cs
where
  go : Bool → List Char → List Char × List Char
    | _, [] => ([], [])
    | true, c :: cs => go (c != '\n') cs
    | false, c :: cs =>
      if isKind c then
        let (taken, rest) := go false cs
        (c :: taken, rest)
      else if flags.verbose && c == '#' then go true cs
      else if flags.verbose && Text.isBlank c then go false cs
      else ([], c :: cs)

/-! Sets and lines. -/

def asciiOnly (flags : Flags) (s : CharSet) : CharSet := if flags.unicode then s else s.toAscii

/-- A complement needs characters beyond ASCII. -/
def complement? (flags : Flags) (s : CharSet) : Option CharSet :=
  if flags.unicode then some s.complement else none

def foldSet (flags : Flags) (s : CharSet) : CharSet :=
  if !flags.ignoreCase then s else if flags.unicode then s.anyCase else s.anyAsciiCase

def finishSet (flags : Flags) (negated : Bool) (s : CharSet) : Option CharSet :=
  if negated then complement? flags (foldSet flags s) else some (foldSet flags s)

def dot (flags : Flags) : Option CharSet :=
  if !flags.unicode then none
  else if flags.dotAll then some .all
  else if flags.crlf then some (CharSet.union (.singleton '\r') (.singleton '\n')).complement
  else some (CharSet.singleton '\n').complement

def lineStart (flags : Flags) : Anchor :=
  if !flags.multiLine then .textStart else if flags.crlf then .lineStartCrlf else .lineStart

def lineEnd (flags : Flags) : Anchor :=
  if !flags.multiLine then .textEnd else if flags.crlf then .lineEndCrlf else .lineEnd

end Scribe.Pattern
