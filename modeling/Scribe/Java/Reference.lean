import Scribe.Java.Fragment

/-!
References to types, with the imports they cause, and the parts of declarations made of them.
-/
namespace Scribe.Java

/-- The name as it is written at this point of the file. A short name that belongs to another type
cannot be used; an ignored name or one of the same package takes its short name without an
import. -/
def typeName (name : String) : Script String := do
  let d ← Script.dependencies
  if d.conflicts name then return name
  else if d.ignores name || d.isSamePackage name then
    Script.reserve name
    return Name.short name
  else
    let _ ← Script.load name
    return Name.short name

def renderType (n : Node) (t : TypeRef) : Script String := do
  let name ← typeName t.name
  let arguments ← if t.arguments.isEmpty then pure "" else
    pure ("<" ++ (← commaList (n.parts .arguments (t.arguments.map .ofArgument))) ++ ">")
  return name ++ arguments ++ Text.times t.dimensions.toNat "[]"

def typeTransform : Transform where
  name := "TypeTransform"
  script _ n := do
    let .type t := n.item | return none
    return some (← renderType n t)
  overflows n :=
    match n.item with
    | .type t => !Text.fits t.dimensions.toNat "[]"
    | _ => false

def renderGeneric (n : Node) (g : Generic) : Script String := do
  let name := g.name.getD "?"
  if g.bounds.isEmpty then return name
  else
    let bounds ← Script.texts (n.parts .bounds (g.bounds.map .type))
    return name ++ " " ++ g.kind.keyword ++ " " ++ " & ".intercalate bounds

def genericTransform : Transform where
  name := "GenericTransform"
  script _ n := do
    let .generic g := n.item | return none
    return some (← renderGeneric n g)

/-- An import statement, unless the name needs none. -/
def renderImport (i : Import) : Script (Option String) := do
  match i.member with
  | some member => return some ("import static " ++ i.type.name ++ "." ++ member ++ ";")
  | none =>
    let d ← Script.dependencies
    if d.ignores i.type.name || d.isSamePackage i.type.name then return none
    else return some ("import " ++ i.type.name ++ ";")

def importTransform : Transform where
  name := "ImportTransform"
  script _ n := do
    let .importDecl i := n.item | return none
    renderImport i

def namedValues : List (String × Node) → Draft (List String)
  | [] => return []
  | (name, value) :: rest => do
    let text ← child value
    return (name ++ " = " ++ text) :: (← namedValues rest)

def renderAnnotationUse (n : Node) (u : AnnotationUse) : Draft String := do
  let type ← child (n.part .type (.type u.type))
  if u.values.isEmpty then
    match u.value with
    | some v => return "@" ++ type ++ "(" ++ (← argumentList n .value [v]) ++ ")"
    | none => return "@" ++ type
  else
    let nodes := n.parts .values (u.values.map fun v => .value v.value)
    let pairs ← namedValues ((u.values.map (·.name)).zip nodes)
    return "@" ++ type ++ "(" ++ ", ".intercalate pairs ++ ")"

def annotationUseTransform : Transform where
  name := "AnnotationUsageTransform"
  script _ n := do
    let .annotationUse u := n.item | return none
    (renderAnnotationUse n u).run

end Scribe.Java
