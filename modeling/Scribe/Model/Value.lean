import Scribe.Model.TypeRef
import Scribe.Model.Modifier
import Scribe.Number.Binary

/-!
Values and the members that contain them: annotation uses, fields and methods. A value may be an
anonymous class, whose body has fields and methods of its own.
-/
namespace Scribe

/-- A block tag such as `@param name text`. -/
structure JavadocTag where
  name : String
  value : Option String := none
  text : Option String := none
deriving DecidableEq, Repr

structure Javadoc where
  text : String := ""
  tags : List JavadocTag := []
deriving DecidableEq, Repr

inductive Number where
  | int (value : Int64)
  | long (value : Int64)
  | float (value : Binary32)
  | double (value : Binary64)
deriving DecidableEq, Repr

mutual

/-- A literal or expression used as an initial value or argument. -/
inductive Value where
  | array (items : List Value)
  | boolean (value : Bool)
  | enumConstant (type : TypeRef) (constant : String)
  | number (value : Number)
  /-- An expression written as it is, such as `this.name`. -/
  | reference (expression : String)
  | text (value : String)
  | null
  | invocation (target : Option TypeRef) (name : String) (arguments : List Value)
  | anonymous (body : Anonymous)

/-- `new T(arguments)` with a class body. -/
structure Anonymous where
  type : TypeRef
  arguments : List Value := []
  fields : List Field := []
  methods : List Method := []

structure NamedValue where
  name : String
  value : Value

/-- `@Foo`, `@Foo(value)` or `@Foo(a = 1, b = 2)`. -/
structure AnnotationUse where
  type : TypeRef
  value : Option Value := none
  values : List NamedValue := []

/-- A member variable, a parameter or an element of an annotation type, depending on where it
stands. -/
structure Field where
  name : String
  type : TypeRef
  javadoc : Option Javadoc := none
  annotations : List AnnotationUse := []
  modifiers : Modifiers := {}
  value : Option Value := none

structure Method where
  name : String
  javadoc : Option Javadoc := none
  annotations : List AnnotationUse := []
  modifiers : Modifiers := {}
  generics : List Generic := []
  type : TypeRef
  /-- The parameters. -/
  fields : List Field := []
  exceptions : List TypeRef := []
  code : List String := []
  /-- Writes an array type of the last parameter with three dots. -/
  tripleDot : Bool := false

end

namespace JavadocTag

def param (name text : String) : JavadocTag :=
  { name := "param", value := some name, text := some text }

def returns (text : String) : JavadocTag := { name := "return", text := some text }

def throws (exception text : String) : JavadocTag :=
  { name := "throws", value := some exception, text := some text }

def author (name : String) : JavadocTag := { name := "author", value := some name }

def see (target : String) : JavadocTag := { name := "see", value := some target }

end JavadocTag

namespace Javadoc

def addTag (j : Javadoc) (t : JavadocTag) : Javadoc := { j with tags := j.tags ++ [t] }

end Javadoc

namespace Anonymous

def addArgument (a : Anonymous) (v : Value) : Anonymous := { a with arguments := a.arguments ++ [v] }

def addField (a : Anonymous) (f : Field) : Anonymous := { a with fields := a.fields ++ [f] }

def addMethod (a : Anonymous) (m : Method) : Anonymous := { a with methods := a.methods ++ [m] }

end Anonymous

namespace AnnotationUse

def addNamed (u : AnnotationUse) (name : String) (value : Value) : AnnotationUse :=
  { u with values := u.values ++ [{ name, value }] }

end AnnotationUse

namespace Method

def addGeneric (m : Method) (g : Generic) : Method := { m with generics := m.generics ++ [g] }

def addParameter (m : Method) (f : Field) : Method := { m with fields := m.fields ++ [f] }

def addException (m : Method) (t : TypeRef) : Method := { m with exceptions := m.exceptions ++ [t] }

def addLine (m : Method) (line : String) : Method := { m with code := m.code ++ [line] }

end Method

end Scribe
