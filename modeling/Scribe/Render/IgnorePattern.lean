import Scribe.Name
import Scribe.Pattern.Reader
import Scribe.Pattern.Search

/-!
Rules for the names that never need an import.
-/
namespace Scribe

inductive IgnorePattern where
  | exact (name : String)
  /-- The direct members of a package: those of `java.lang`, but not of `java.lang.reflect`. -/
  | members (package : String)
  /-- Names without a package, such as type variables. -/
  | unqualified
  /-- Names in which a pattern is found. -/
  | found (pattern : Pattern)
deriving DecidableEq, Repr

namespace IgnorePattern

def covers (p : IgnorePattern) (name : String) : Bool :=
  match p with
  | exact n => n == name
  | members package => Name.package? name == some package
  | unqualified => !name.toList.contains '.'
  | found pattern => pattern.isFoundIn name

/-- The rule for a pattern given as text; the error is a text that is no pattern. -/
def ofPattern? (text : String) : Except String IgnorePattern :=
  match Pattern.ofText? text with
  | some p => .ok (found p)
  | none => .error text

end IgnorePattern

end Scribe
