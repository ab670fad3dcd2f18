import Scribe.Java.Fragment

/-!
Members of type declarations: methods, constructors, fields and initializers.
-/
namespace Scribe.Java

def throwsClause (n : Node) (exceptions : List TypeRef) : Script String := do
  if exceptions.isEmpty then return ""
  else return " throws " ++ (← typeList n .exceptions exceptions)

def parameters (n : Node) (fields : List Field) : Script String :=
  commaList (n.parts .fields (fields.map .field))

def codeBlock (f : Format) (code : List String) : String := f.block (f.code code)

/-- In an interface only default, static and private methods have a body; elsewhere abstract and
native ones have none. -/
def hasBody (s : Stack) (ms : Modifiers) : Bool :=
  if s.parent?.map Node.kind == some .interfaceDecl then
    ms.contains .default || ms.contains .static || ms.contains .privateAccess
  else !ms.contains .abstract && !ms.contains .native

def renderMethod (ctx : Context) (n : Node) (m : Method) : Draft String := do
  let f := ctx.format
  let generics ← genericList n m.generics
  let type ← child (n.part .type (.type m.type))
  let parameters ← parameters n m.fields
  let throws ← throwsClause n m.exceptions
  let body := if hasBody ctx.stack m.modifiers then " " ++ codeBlock f m.code else ";"
  declaration f n (modifierWords ctx.stack m.modifiers
    ++ (if generics = "" then "" else generics ++ " ")
    ++ type ++ " " ++ m.name ++ "(" ++ parameters ++ ")" ++ throws ++ body)

def methodTransform : Transform where
  name := "MethodTransform"
  script ctx n := do
    let .method m := n.item | return none
    (renderMethod ctx n m).run

/-- A constructor has the name of the declaration around it, and without one is not written. -/
def renderConstructor (ctx : Context) (n : Node) (c : Constructor) : Draft String := do
  let f := ctx.format
  let some name := ctx.stack.enclosing?.bind Node.name? | failure
  let parameters ← parameters n c.fields
  let throws ← throwsClause n c.exceptions
  declaration f n (modifierWords ctx.stack c.modifiers ++ name ++ "(" ++ parameters ++ ")"
    ++ throws ++ " " ++ codeBlock f c.code)

def constructorTransform : Transform where
  name := "ConstructorTransform"
  script ctx n := do
    let .constructor c := n.item | return none
    (renderConstructor ctx n c).run

/-- Whether a field is an array, and the last parameter of a method or constructor that writes such
a one with three dots. -/
def isVarargs (s : Stack) (n : Node) (f : Field) : Bool :=
  let last := fun (p : Node) (fields : List Field) =>
    (p.parts .fields (fields.map .field)).getLast?.any n.same
  f.type.dimensions > 0 && match s.parent? with
    | some p =>
      match p.item with
      | .method m => m.tripleDot && last p m.fields
      | .constructor c => c.tripleDot && last p c.fields
      | _ => false
    | none => false

def varargsType (type : String) : String :=
  match Text.dropEnd? "[]" type with
  | some element => element ++ "..."
  | none => type

def initialValue (n : Node) (lead : String) (value : Option Value) : Draft String :=
  match value with
  | some v => return lead ++ (← child (n.part .value (.value v)))
  | none => return ""

/-- A parameter, an element of an annotation type or a variable, as its parent demands. -/
def renderField (ctx : Context) (n : Node) (x : Field) : Draft String := do
  let f := ctx.format
  let type ← child (n.part .type (.type x.type))
  let words := modifierWords ctx.stack x.modifiers
  match ctx.stack.parent?.map Node.kind with
  | some .method | some .constructor =>
    let type := if isVarargs ctx.stack n x then varargsType type else type
    let annotations ← Script.texts (n.parts .annotations (x.annotations.map .annotationUse))
    return " ".intercalate (annotations ++ [words ++ type ++ " " ++ x.name])
  | some .annotationDecl =>
    let value ← initialValue n " default " x.value
    declaration f n (words ++ type ++ " " ++ x.name ++ "()" ++ value ++ ";")
  | _ =>
    let value ← initialValue n " = " x.value
    declaration f n (words ++ type ++ " " ++ x.name ++ value ++ ";")

def fieldTransform : Transform where
  name := "FieldTransform"
  script ctx n := do
    let .field x := n.item | return none
    (renderField ctx n x).run

def initializerTransform : Transform where
  name := "InitializerTransform"
  script ctx n := do
    let .initializer i := n.item | return none
    return some ((if i.isStatic then "static " else "") ++ codeBlock ctx.format i.code)

end Scribe.Java
