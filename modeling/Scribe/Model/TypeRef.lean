import Scribe.Name

/-!
References to types: a name, type arguments and array dimensions. The name stands apart from the
rest, so that it can always be imported.
-/
namespace Scribe

/-- Which side a generic's bounds are on: `extends` or `super`. -/
inductive BoundKind where
  | upper | lower
deriving DecidableEq, Repr

namespace BoundKind

def keyword : BoundKind → String
  | upper => "extends"
  | lower => "super"

end BoundKind

mutual

/-- A type by its qualified name; primitive types and type variables have no package. -/
structure TypeRef where
  name : String
  arguments : List TypeArgument := []
  dimensions : UInt64 := 0

/-- `String` in `List<String>`, or `? extends Number` in `List<? extends Number>`. -/
inductive TypeArgument where
  | type (ref : TypeRef)
  | wildcard (generic : Generic)

/-- A type parameter or wildcard with its bounds; one without a name is the wildcard `?`. -/
structure Generic where
  name : Option String := none
  bounds : List TypeRef := []
  kind : BoundKind := .upper

end

namespace TypeRef

def ofName (name : String) : TypeRef := { name }

def addArgument (t : TypeRef) (a : TypeArgument) : TypeRef :=
  { t with arguments := t.arguments ++ [a] }

def array (t : TypeRef) : TypeRef := { t with dimensions := t.dimensions + 1 }

def shortName (t : TypeRef) : String := Name.short t.name

def package? (t : TypeRef) : Option String := Name.package? t.name

end TypeRef

namespace Generic

def ofName (name : String) : Generic := { name := some name }

def wildcard : Generic := {}

/-- Adds an upper bound; all bounds of a generic are on one side. -/
def addUpper (g : Generic) (bound : TypeRef) : Generic :=
  { g with kind := .upper, bounds := g.bounds ++ [bound] }

def addLower (g : Generic) (bound : TypeRef) : Generic :=
  { g with kind := .lower, bounds := g.bounds ++ [bound] }

end Generic

end Scribe
