import Scribe.Model.Datum.Basic
import Scribe.Model.Value

/-!
References to types, values and members as data and back.
-/
namespace Scribe

open Json (Datum)
open Json.Datum (ofOption ofStrings toOption? toString? toList?)

namespace BoundKind

def toDatum (k : BoundKind) : Datum := .variant k.keyword .absent

def ofDatum? : Datum → Option BoundKind
  | .variant "extends" _ => some .upper
  | .variant "super" _ => some .lower
  | _ => none

end BoundKind

mutual

def TypeRef.toDatum : TypeRef → Datum
  | ⟨name, arguments, dimensions⟩ =>
    .record [.string name, .list (argumentData arguments), .size dimensions]

def TypeArgument.toDatum : TypeArgument → Datum
  | .type t => .variant "type" t.toDatum
  | .wildcard g => .variant "wildcard" g.toDatum

def Generic.toDatum : Generic → Datum
  | ⟨name, bounds, kind⟩ =>
    .record [ofOption .string name, .list (typeData bounds), kind.toDatum]

def argumentData : List TypeArgument → List Datum
  | [] => []
  | a :: as => a.toDatum :: argumentData as

def typeData : List TypeRef → List Datum
  | [] => []
  | t :: ts => t.toDatum :: typeData ts

end

mutual

def TypeRef.ofDatum? : Datum → Option TypeRef
  | .record [.string name, .list arguments, .size dimensions] => do
    return ⟨name, ← ofArgumentData? arguments, dimensions⟩
  | _ => none

def TypeArgument.ofDatum? : Datum → Option TypeArgument
  | .variant name d =>
    if name = "type" then (TypeRef.ofDatum? d).map .type
    else (Generic.ofDatum? d).map .wildcard
  | _ => none

def Generic.ofDatum? : Datum → Option Generic
  | .record [name, .list bounds, kind] => do
    return ⟨← toOption? toString? name, ← ofTypeData? bounds, ← BoundKind.ofDatum? kind⟩
  | _ => none

def ofArgumentData? : List Datum → Option (List TypeArgument)
  | [] => some []
  | d :: ds => do return (← TypeArgument.ofDatum? d) :: (← ofArgumentData? ds)

def ofTypeData? : List Datum → Option (List TypeRef)
  | [] => some []
  | d :: ds => do return (← TypeRef.ofDatum? d) :: (← ofTypeData? ds)

end

namespace Modifiers

def toDatum (s : Modifiers) : Datum := .list (s.toList.map fun m => .variant m.keyword .absent)

def ofDatum? (d : Datum) : Option Modifiers :=
  (toList? (fun
    | .variant keyword _ => Modifier.ofKeyword? keyword
    | _ => none) d).map ofList

end Modifiers

namespace JavadocTag

def toDatum (t : JavadocTag) : Datum :=
  .record [.string t.name, ofOption .string t.value, ofOption .string t.text]

def ofDatum? : Datum → Option JavadocTag
  | .record [.string name, value, text] => do
    return ⟨name, ← toOption? toString? value, ← toOption? toString? text⟩
  | _ => none

end JavadocTag

namespace Javadoc

def toDatum (j : Javadoc) : Datum := .record [.string j.text, .list (j.tags.map JavadocTag.toDatum)]

def ofDatum? : Datum → Option Javadoc
  | .record [.string text, tags] => do return ⟨text, ← toList? JavadocTag.ofDatum? tags⟩
  | _ => none

end Javadoc

namespace Number

def toDatum : Number → Datum
  | int i => .variant "int" (.integer i)
  | long i => .variant "long" (.integer i)
  | float x => .variant "float" (.binary32 x)
  | double x => .variant "double" (.binary64 x)

def ofDatum? : Datum → Option Number
  | .variant "int" (.integer i) => some (.int i)
  | .variant "long" (.integer i) => some (.long i)
  | .variant "float" (.binary32 x) => some (.float x)
  | .variant "double" (.binary64 x) => some (.double x)
  | _ => none

end Number

mutual

def Value.toDatum : Value → Datum
  | .array items => .variant "array" (.list (valueData items))
  | .boolean b => .variant "boolean" (.bool b)
  | .enumConstant type constant => .variant "enum" (.record [type.toDatum, .string constant])
  | .number n => .variant "number" n.toDatum
  | .reference e => .variant "reference" (.string e)
  | .text s => .variant "text" (.string s)
  | .null => .variant "null" .absent
  | .invocation target name arguments =>
    .variant "invocation"
      (.record [ofOption TypeRef.toDatum target, .string name, .list (valueData arguments)])
  | .anonymous body => .variant "anonymous" body.toDatum

def Anonymous.toDatum : Anonymous → Datum
  | ⟨type, arguments, fields, methods⟩ =>
    .record [type.toDatum, .list (valueData arguments), .list (fieldData fields),
      .list (methodData methods)]

def NamedValue.toDatum : NamedValue → Datum
  | ⟨name, value⟩ => .record [.string name, value.toDatum]

def AnnotationUse.toDatum : AnnotationUse → Datum
  | ⟨type, value, values⟩ =>
    .record [type.toDatum, optionalValueDatum value, .list (namedValueData values)]

def Field.toDatum : Field → Datum
  | ⟨name, type, javadoc, annotations, modifiers, value⟩ =>
    .record [.string name, type.toDatum, ofOption Javadoc.toDatum javadoc,
      .list (annotationUseData annotations), modifiers.toDatum, optionalValueDatum value]

def Method.toDatum : Method → Datum
  | ⟨name, javadoc, annotations, modifiers, generics, type, fields, exceptions, code, tripleDot⟩ =>
    .record [.string name, ofOption Javadoc.toDatum javadoc, .list (annotationUseData annotations),
      modifiers.toDatum, .list (generics.map Generic.toDatum), type.toDatum,
      .list (fieldData fields), .list (typeData exceptions), ofStrings code, .bool tripleDot]

def optionalValueDatum : Option Value → Datum
  | none => .absent
  | some v => v.toDatum

def valueData : List Value → List Datum
  | [] => []
  | v :: vs => v.toDatum :: valueData vs

def namedValueData : List NamedValue → List Datum
  | [] => []
  | v :: vs => v.toDatum :: namedValueData vs

def annotationUseData : List AnnotationUse → List Datum
  | [] => []
  | u :: us => u.toDatum :: annotationUseData us

def fieldData : List Field → List Datum
  | [] => []
  | f :: fs => f.toDatum :: fieldData fs

def methodData : List Method → List Datum
  | [] => []
  | m :: ms => m.toDatum :: methodData ms

end

mutual

def Value.ofDatum? : Datum → Option Value
  | .variant "array" (.list items) => (ofValueData? items).map .array
  | .variant "boolean" (.bool b) => some (.boolean b)
  | .variant "enum" (.record [type, .string constant]) =>
    (TypeRef.ofDatum? type).map (.enumConstant · constant)
  | .variant "number" n => (Number.ofDatum? n).map .number
  | .variant "reference" (.string e) => some (.reference e)
  | .variant "text" (.string s) => some (.text s)
  | .variant "null" _ => some .null
  | .variant "invocation" (.record [target, .string name, .list arguments]) => do
    return .invocation (← toOption? TypeRef.ofDatum? target) name (← ofValueData? arguments)
  | .variant "anonymous" body => (Anonymous.ofDatum? body).map .anonymous
  | _ => none

def Anonymous.ofDatum? : Datum → Option Anonymous
  | .record [type, .list arguments, .list fields, .list methods] => do
    return ⟨← TypeRef.ofDatum? type, ← ofValueData? arguments, ← ofFieldData? fields,
      ← ofMethodData? methods⟩
  | _ => none

def NamedValue.ofDatum? : Datum → Option NamedValue
  | .record [.string name, value] => (Value.ofDatum? value).map (⟨name, ·⟩)
  | _ => none

def AnnotationUse.ofDatum? : Datum → Option AnnotationUse
  | .record [type, value, .list values] => do
    let value ← match value with
      | .absent => some none
      | d => (Value.ofDatum? d).map some
    return ⟨← TypeRef.ofDatum? type, value, ← ofNamedValueData? values⟩
  | _ => none

def Field.ofDatum? : Datum → Option Field
  | .record [.string name, type, javadoc, .list annotations, modifiers, value] => do
    let value ← match value with
      | .absent => some none
      | d => (Value.ofDatum? d).map some
    return ⟨name, ← TypeRef.ofDatum? type, ← toOption? Javadoc.ofDatum? javadoc,
      ← ofAnnotationUseData? annotations, ← Modifiers.ofDatum? modifiers, value⟩
  | _ => none

def Method.ofDatum? : Datum → Option Method
  | .record [.string name, javadoc, .list annotations, modifiers, generics, type, .list fields,
      exceptions, code, .bool tripleDot] => do
    return ⟨name, ← toOption? Javadoc.ofDatum? javadoc, ← ofAnnotationUseData? annotations,
      ← Modifiers.ofDatum? modifiers, ← toList? Generic.ofDatum? generics, ← TypeRef.ofDatum? type,
      ← ofFieldData? fields, ← toList? TypeRef.ofDatum? exceptions, ← toList? toString? code,
      tripleDot⟩
  | _ => none

def ofValueData? : List Datum → Option (List Value)
  | [] => some []
  | d :: ds => do return (← Value.ofDatum? d) :: (← ofValueData? ds)

def ofNamedValueData? : List Datum → Option (List NamedValue)
  | [] => some []
  | d :: ds => do return (← NamedValue.ofDatum? d) :: (← ofNamedValueData? ds)

def ofAnnotationUseData? : List Datum → Option (List AnnotationUse)
  | [] => some []
  | d :: ds => do return (← AnnotationUse.ofDatum? d) :: (← ofAnnotationUseData? ds)

def ofFieldData? : List Datum → Option (List Field)
  | [] => some []
  | d :: ds => do return (← Field.ofDatum? d) :: (← ofFieldData? ds)

def ofMethodData? : List Datum → Option (List Method)
  | [] => some []
  | d :: ds => do return (← Method.ofDatum? d) :: (← ofMethodData? ds)

end

end Scribe
