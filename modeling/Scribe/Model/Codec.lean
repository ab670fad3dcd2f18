import Scribe.Json.Reader
import Scribe.Json.Printer
import Scribe.Model.Schema
import Scribe.Model.Datum.TypeDecl
import Scribe.Model.Datum.Markup

/-!
Reading parts of models from JSON text and writing them. Equality is equality of what is written,
except that numbers compare by value.
-/
namespace Scribe

open Json (Datum Shape Tree ReadError)

class Coded (α : Type) where
  shape : Shape Form
  toDatum : α → Datum
  ofDatum? : Datum → Option α

namespace Coded

instance : Coded String := ⟨.string, .string, Datum.toString?⟩
instance : Coded Int64 := ⟨.integer, .integer, fun
  | .integer i => some i
  | _ => none⟩
instance : Coded File := ⟨.named .file, File.toDatum, File.ofDatum?⟩
instance : Coded ClassDecl := ⟨.named .classDecl, ClassDecl.toDatum, ClassDecl.ofDatum?⟩
instance : Coded InterfaceDecl :=
  ⟨.named .interfaceDecl, InterfaceDecl.toDatum, InterfaceDecl.ofDatum?⟩
instance : Coded EnumDecl := ⟨.named .enumDecl, EnumDecl.toDatum, EnumDecl.ofDatum?⟩
instance : Coded AnnotationDecl :=
  ⟨.named .annotationDecl, AnnotationDecl.toDatum, AnnotationDecl.ofDatum?⟩
instance : Coded TypeDecl := ⟨.named .typeDecl, TypeDecl.toDatum, TypeDecl.ofDatum?⟩
instance : Coded EnumConstant :=
  ⟨.named .enumConstant, EnumConstant.toDatum, EnumConstant.ofDatum?⟩
instance : Coded Method := ⟨.named .method, Method.toDatum, Method.ofDatum?⟩
instance : Coded Constructor := ⟨.named .constructor, Constructor.toDatum, Constructor.ofDatum?⟩
instance : Coded Field := ⟨.named .field, Field.toDatum, Field.ofDatum?⟩
instance : Coded Generic := ⟨.named .generic, Generic.toDatum, Generic.ofDatum?⟩
instance : Coded Import := ⟨.named .importDecl, Import.toDatum, Import.ofDatum?⟩
instance : Coded Javadoc := ⟨.named .javadoc, Javadoc.toDatum, Javadoc.ofDatum?⟩
instance : Coded JavadocTag := ⟨.named .javadocTag, JavadocTag.toDatum, JavadocTag.ofDatum?⟩
instance : Coded AnnotationUse :=
  ⟨.named .annotationUse, AnnotationUse.toDatum, AnnotationUse.ofDatum?⟩
instance : Coded Initializer := ⟨.named .initializer, Initializer.toDatum, Initializer.ofDatum?⟩
instance : Coded TypeRef := ⟨.named .type, TypeRef.toDatum, TypeRef.ofDatum?⟩
instance : Coded TypeArgument :=
  ⟨.named .typeArgument, TypeArgument.toDatum, TypeArgument.ofDatum?⟩
instance : Coded Value := ⟨.named .value, Value.toDatum, Value.ofDatum?⟩
instance : Coded Anonymous := ⟨.named .anonymous, Anonymous.toDatum, Anonymous.ofDatum?⟩
instance : Coded Modifier := ⟨.named .modifier, fun m => .variant m.keyword .absent, fun
  | .variant keyword _ => Modifier.ofKeyword? keyword
  | _ => none⟩
instance : Coded Modifiers := ⟨.list (.named .modifier), Modifiers.toDatum, Modifiers.ofDatum?⟩
instance : Coded Document := ⟨.named .document, Document.toDatum, Document.ofDatum?⟩
instance : Coded Element := ⟨.named .element, Element.toDatum, Element.ofDatum?⟩
instance : Coded MarkupDeclaration :=
  ⟨.named .declaration, MarkupDeclaration.toDatum, MarkupDeclaration.ofDatum?⟩
instance : Coded Tag := ⟨.named .tag, Tag.toDatum, Tag.ofDatum?⟩
instance : Coded Attribute := ⟨.named .tagAttribute, Attribute.toDatum, Attribute.ofDatum?⟩
instance : Coded CharacterData := ⟨.string, CharacterData.toDatum, CharacterData.ofDatum?⟩

instance [Coded α] : Coded (List α) where
  shape := .list (shape α)
  toDatum as := .list (as.map toDatum)
  ofDatum? := Datum.toList? ofDatum?

def equal [Coded α] (a b : α) : Bool := toDatum a == toDatum b

end Coded

namespace Json

variable {α : Type} [Coded α]

/-- Every datum of a shape is a value of the types with that shape, so the last error is none that
a text can cause. -/
def decodeTree (t : Tree) : Except ReadError α := do
  let d ← read Form.describe (Coded.shape α) t
  match Coded.ofDatum? d with
  | some a => .ok a
  | none => .error .invalidType

/-- The value that a text holds, with nothing but space after it. -/
def decode (text : String) : Except ReadError α := do
  let (t, ended) := Tree.ofText text
  let a ← decodeTree t
  if ended then .ok a else .error .malformed

def encodeTree (a : α) : Tree := write Form.describe (Coded.shape α) (Coded.toDatum a)

/-- The compact text of a value. -/
def encode (a : α) : String := (encodeTree a).toText

end Json

end Scribe
