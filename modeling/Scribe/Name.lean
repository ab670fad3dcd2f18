import Scribe.Text.Split
import Scribe.Text.Alphabetic
import Scribe.Text.Numeric

/-!
Names: identifiers, dotted names and the names of markup tags, with the two parts of a dotted name.
-/
namespace Scribe.Name

/-- The last segment of a dotted name. -/
def short (name : String) : String :=
  match Text.splitLast? '.' name with
  | some (_, last) => last
  | none => name

/-- What precedes the last segment; a name without a dot has no package. -/
def package? (name : String) : Option String :=
  (Text.splitLast? '.' name).map (·.1)

def startsIdentifier (c : Char) : Bool := Text.isAlphabetic c || c == '_' || c == '$'

def continuesIdentifier (c : Char) : Bool :=
  Text.isAlphabetic c || Text.isNumeric c || c == '_' || c == '$'

def isIdentifier (name : String) : Bool :=
  match name.toList with
  | [] => false
  | c :: cs => startsIdentifier c && cs.all continuesIdentifier

def isQualified (name : String) : Bool := (Text.splitOn "." name).all isIdentifier

def startsMarkup (c : Char) : Bool := Text.isAlphabetic c || c == '_'

def continuesMarkup (c : Char) : Bool :=
  Text.isAlphabetic c || Text.isNumeric c || c == '_' || c == '-' || c == '.' || c == ':'

/-- Names of tags and attributes, which may hold dashes, dots and colons. -/
def isMarkup (name : String) : Bool :=
  match name.toList with
  | [] => false
  | c :: cs => startsMarkup c && cs.all continuesMarkup

theorem isIdentifier_ne_empty {name : String} (h : isIdentifier name) : name ≠ "" := by
  rintro rfl
  exact absurd h (by decide)

theorem isMarkup_ne_empty {name : String} (h : isMarkup name) : name ≠ "" := by
  rintro rfl
  exact absurd h (by decide)

end Scribe.Name
