import Scribe.Text.Split

/-!
The layout of rendered text: an indentation unit, a line terminator, and the few ways in which
pieces of text are put together. A format is chosen once per generator, so rendering never depends
on which format is current at the time.
-/
namespace Scribe

structure Format where
  indentUnit : String := "    "
  lineTerminator : String := "\n"
deriving DecidableEq, Repr

namespace Format

def standard : Format := {}

def spaces (width : Nat) : Format := { indentUnit := Text.times width " " }

def withLineTerminator (f : Format) (terminator : String) : Format :=
  { f with lineTerminator := terminator }

/-- The format that generators made from now on copy. -/
def current : StateM Format Format := get

def setCurrent (new : Format) : StateM Format Format := getModify fun _ => new

def indentLine (f : Format) (line : String) : String :=
  if line = "" then "" else f.indentUnit ++ line

/-- Indents every non-empty line one level. -/
def indent (f : Format) (text : String) : String :=
  f.lineTerminator.intercalate ((Text.splitOn f.lineTerminator text).map f.indentLine)

/-- Braces around a body one level deeper; an empty body leaves them closed on one line. -/
def block (f : Format) (body : String) : String :=
  if body = "" then "\x7b\x7d"
  else "\x7b" ++ f.lineTerminator ++ f.indent body ++ f.lineTerminator ++ "\x7d"

def join (items : List String) (separator : String) : String :=
  separator.intercalate (items.filter (· != ""))

def lines (f : Format) (items : List String) : String := join items f.lineTerminator

/-- Groups with a blank line between two non-empty ones. -/
def separate (f : Format) (groups : List String) : String :=
  join groups (f.lineTerminator ++ f.lineTerminator)

/-- Verbatim statements, their blank lines kept. -/
def code (f : Format) (statements : List String) : String :=
  f.lineTerminator.intercalate (statements.flatMap (Text.splitOn "\n"))

@[simp] theorem block_empty (f : Format) : f.block "" = "\x7b\x7d" := by simp [block]

end Format

end Scribe
