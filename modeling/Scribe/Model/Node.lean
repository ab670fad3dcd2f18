import Scribe.Model.Kind
import Scribe.Model.TypeDecl
import Scribe.Model.Markup

/-!
Nodes, the units of rendering: a part of a model together with its place in it. Equal parts at
different places are different nodes.
-/
namespace Scribe

/-- A part of a model that is rendered on its own. -/
inductive Item where
  | file (x : File)
  | classDecl (x : ClassDecl)
  | interfaceDecl (x : InterfaceDecl)
  | enumDecl (x : EnumDecl)
  | annotationDecl (x : AnnotationDecl)
  | enumConstant (x : EnumConstant)
  | method (x : Method)
  | constructor (x : Constructor)
  | field (x : Field)
  | generic (x : Generic)
  | importDecl (x : Import)
  | javadoc (x : Javadoc)
  | javadocTag (x : JavadocTag)
  | annotationUse (x : AnnotationUse)
  | initializer (x : Initializer)
  | type (x : TypeRef)
  | value (x : Value)
  | document (x : Document)
  | declaration (x : MarkupDeclaration)
  | tag (x : Tag)
  | tagAttribute (x : Attribute)
  | text (x : CharacterData)

/-- A part of a node that holds other nodes. -/
inductive Slot where
  | javadoc | annotations | generics | supertype | interfaces | constants | values | fields
  | initializers | constructors | methods | classes | imports | importBlock | type | value
  | arguments | exceptions | bounds | tags | elements | attributes | children
deriving DecidableEq, Repr

/-- The way from a root to a part of it, the last step first. -/
abbrev Place := List (Slot × Nat)

structure Node where
  item : Item
  place : Place := []

def Value.kind : Value → Kind
  | .array _ => .arrayValue
  | .boolean _ => .booleanValue
  | .enumConstant .. => .enumValue
  | .number _ => .numberValue
  | .reference _ => .referenceValue
  | .text _ => .textValue
  | .null => .nullValue
  | .invocation .. => .invocationValue
  | .anonymous _ => .anonymousValue

namespace Item

def kind : Item → Kind
  | file _ => .file
  | classDecl _ => .classDecl
  | interfaceDecl _ => .interfaceDecl
  | enumDecl _ => .enumDecl
  | annotationDecl _ => .annotationDecl
  | enumConstant _ => .enumConstant
  | method _ => .method
  | constructor _ => .constructor
  | field _ => .field
  | generic _ => .generic
  | importDecl _ => .importDecl
  | javadoc _ => .javadoc
  | javadocTag _ => .javadocTag
  | annotationUse _ => .annotationUse
  | initializer _ => .initializer
  | type _ => .type
  | value x => x.kind
  | document _ => .document
  | declaration _ => .declaration
  | tag _ => .tag
  | tagAttribute _ => .tagAttribute
  | text _ => .text

def ofTypeDecl : TypeDecl → Item
  | .classDecl d => .classDecl d
  | .interfaceDecl d => .interfaceDecl d
  | .enumDecl d => .enumDecl d
  | .annotationDecl d => .annotationDecl d

def ofArgument : TypeArgument → Item
  | .type t => .type t
  | .wildcard g => .generic g

def ofElement : Element → Item
  | .declaration d => .declaration d
  | .tag t => .tag t
  | .text t => .text t

def name? : Item → Option String
  | file x => some x.name
  | classDecl x => some x.name
  | interfaceDecl x => some x.name
  | enumDecl x => some x.name
  | annotationDecl x => some x.name
  | enumConstant x => some x.name
  | method x => some x.name
  | field x => some x.name
  | generic x => x.name
  | javadocTag x => some x.name
  | type x => some x.name
  | value (.invocation _ name _) => some name
  | tag x => some x.name
  | tagAttribute x => some x.name
  | _ => none

def javadoc? : Item → Option Javadoc
  | file x => x.javadoc
  | classDecl x => x.javadoc
  | interfaceDecl x => x.javadoc
  | enumDecl x => x.javadoc
  | annotationDecl x => x.javadoc
  | enumConstant x => x.javadoc
  | method x => x.javadoc
  | constructor x => x.javadoc
  | field x => x.javadoc
  | _ => none

def modifiers? : Item → Option Modifiers
  | classDecl x => some x.modifiers
  | interfaceDecl x => some x.modifiers
  | enumDecl x => some x.modifiers
  | annotationDecl x => some x.modifiers
  | method x => some x.modifiers
  | constructor x => some x.modifiers
  | field x => some x.modifiers
  | _ => none

def annotations? : Item → Option (List AnnotationUse)
  | classDecl x => some x.annotations
  | interfaceDecl x => some x.annotations
  | enumDecl x => some x.annotations
  | annotationDecl x => some x.annotations
  | method x => some x.annotations
  | constructor x => some x.annotations
  | field x => some x.annotations
  | _ => none

def fields? : Item → Option (List Field)
  | classDecl x => some x.fields
  | interfaceDecl x => some x.fields
  | enumDecl x => some x.fields
  | annotationDecl x => some x.fields
  | enumConstant x => some x.fields
  | method x => some x.fields
  | constructor x => some x.fields
  | value (.anonymous x) => some x.fields
  | _ => none

def methods? : Item → Option (List Method)
  | classDecl x => some x.methods
  | interfaceDecl x => some x.methods
  | enumDecl x => some x.methods
  | enumConstant x => some x.methods
  | value (.anonymous x) => some x.methods
  | _ => none

def code? : Item → Option (List String)
  | method x => some x.code
  | constructor x => some x.code
  | initializer x => some x.code
  | _ => none

end Item

namespace Node

def kind (n : Node) : Kind := n.item.kind

def isTypeDecl (n : Node) : Bool := n.kind.family == some .typeDecl

def name? (n : Node) : Option String := n.item.name?

/-- Whether two nodes are one: their parts may be equal at different places. -/
def same (n m : Node) : Bool := n.place == m.place

def part (n : Node) (slot : Slot) (item : Item) : Node := ⟨item, (slot, 0) :: n.place⟩

def parts (n : Node) (slot : Slot) (items : List Item) : List Node :=
  items.mapIdx fun i item => ⟨item, (slot, i) :: n.place⟩

end Node

end Scribe
