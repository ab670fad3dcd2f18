import Scribe.Model.Datum.Value
import Scribe.Model.TypeDecl

/-!
Declarations and files as data and back.
-/
namespace Scribe

open Json (Datum)
open Json.Datum (ofOption ofStrings toOption? toString? toList?)

namespace Import

def toDatum (i : Import) : Datum := .record [i.type.toDatum, ofOption .string i.member]

def ofDatum? : Datum → Option Import
  | .record [type, member] => do return ⟨← TypeRef.ofDatum? type, ← toOption? toString? member⟩
  | _ => none

end Import

namespace Initializer

def toDatum (i : Initializer) : Datum := .record [.bool i.isStatic, ofStrings i.code]

def ofDatum? : Datum → Option Initializer
  | .record [.bool isStatic, code] => do return ⟨isStatic, ← toList? toString? code⟩
  | _ => none

end Initializer

namespace Constructor

def toDatum (c : Constructor) : Datum :=
  .record [ofOption Javadoc.toDatum c.javadoc, .list (annotationUseData c.annotations),
    c.modifiers.toDatum, .list (fieldData c.fields), .list (typeData c.exceptions),
    ofStrings c.code, .bool c.tripleDot]

def ofDatum? : Datum → Option Constructor
  | .record [javadoc, annotations, modifiers, fields, exceptions, code, .bool tripleDot] => do
    return ⟨← toOption? Javadoc.ofDatum? javadoc, ← toList? AnnotationUse.ofDatum? annotations,
      ← Modifiers.ofDatum? modifiers, ← toList? Field.ofDatum? fields,
      ← toList? TypeRef.ofDatum? exceptions, ← toList? toString? code, tripleDot⟩
  | _ => none

end Constructor

namespace EnumConstant

def toDatum (c : EnumConstant) : Datum :=
  .record [.string c.name, ofOption Javadoc.toDatum c.javadoc, .list (valueData c.values),
    .list (fieldData c.fields), .list (methodData c.methods)]

def ofDatum? : Datum → Option EnumConstant
  | .record [.string name, javadoc, values, fields, methods] => do
    return ⟨name, ← toOption? Javadoc.ofDatum? javadoc, ← toList? Value.ofDatum? values,
      ← toList? Field.ofDatum? fields, ← toList? Method.ofDatum? methods⟩
  | _ => none

end EnumConstant

namespace AnnotationDecl

def toDatum (d : AnnotationDecl) : Datum :=
  .record [.string d.name, ofOption Javadoc.toDatum d.javadoc,
    .list (annotationUseData d.annotations), d.modifiers.toDatum, .list (fieldData d.fields)]

def ofDatum? : Datum → Option AnnotationDecl
  | .record [.string name, javadoc, annotations, modifiers, fields] => do
    return ⟨name, ← toOption? Javadoc.ofDatum? javadoc, ← toList? AnnotationUse.ofDatum? annotations,
      ← Modifiers.ofDatum? modifiers, ← toList? Field.ofDatum? fields⟩
  | _ => none

end AnnotationDecl

mutual

def ClassDecl.toDatum : ClassDecl → Datum
  | ⟨name, javadoc, annotations, modifiers, generics, supertype, interfaces, fields, initializers,
      constructors, methods, classes⟩ =>
    .record [.string name, ofOption Javadoc.toDatum javadoc, .list (annotationUseData annotations),
      modifiers.toDatum, .list (generics.map Generic.toDatum), ofOption TypeRef.toDatum supertype,
      .list (typeData interfaces), .list (fieldData fields),
      .list (initializers.map Initializer.toDatum), .list (constructors.map Constructor.toDatum),
      .list (methodData methods), .list (typeDeclData classes)]

def InterfaceDecl.toDatum : InterfaceDecl → Datum
  | ⟨name, javadoc, annotations, modifiers, generics, interfaces, fields, methods, classes⟩ =>
    .record [.string name, ofOption Javadoc.toDatum javadoc, .list (annotationUseData annotations),
      modifiers.toDatum, .list (generics.map Generic.toDatum), .list (typeData interfaces),
      .list (fieldData fields), .list (methodData methods), .list (typeDeclData classes)]

def EnumDecl.toDatum : EnumDecl → Datum
  | ⟨name, javadoc, annotations, modifiers, interfaces, constants, fields, initializers,
      constructors, methods, classes⟩ =>
    .record [.string name, ofOption Javadoc.toDatum javadoc, .list (annotationUseData annotations),
      modifiers.toDatum, .list (typeData interfaces), .list (constants.map EnumConstant.toDatum),
      .list (fieldData fields), .list (initializers.map Initializer.toDatum),
      .list (constructors.map Constructor.toDatum), .list (methodData methods),
      .list (typeDeclData classes)]

def TypeDecl.toDatum : TypeDecl → Datum
  | .classDecl d => .variant "class" d.toDatum
  | .interfaceDecl d => .variant "interface" d.toDatum
  | .enumDecl d => .variant "enum" d.toDatum
  | .annotationDecl d => .variant "annotation" d.toDatum

def typeDeclData : List TypeDecl → List Datum
  | [] => []
  | d :: ds => d.toDatum :: typeDeclData ds

end

mutual

def ClassDecl.ofDatum? : Datum → Option ClassDecl
  | .record [.string name, javadoc, annotations, modifiers, generics, supertype, interfaces, fields,
      initializers, constructors, methods, .list classes] => do
    return ⟨name, ← toOption? Javadoc.ofDatum? javadoc, ← toList? AnnotationUse.ofDatum? annotations,
      ← Modifiers.ofDatum? modifiers, ← toList? Generic.ofDatum? generics,
      ← toOption? TypeRef.ofDatum? supertype, ← toList? TypeRef.ofDatum? interfaces,
      ← toList? Field.ofDatum? fields, ← toList? Initializer.ofDatum? initializers,
      ← toList? Constructor.ofDatum? constructors, ← toList? Method.ofDatum? methods,
      ← ofTypeDeclData? classes⟩
  | _ => none

def InterfaceDecl.ofDatum? : Datum → Option InterfaceDecl
  | .record [.string name, javadoc, annotations, modifiers, generics, interfaces, fields, methods,
      .list classes] => do
    return ⟨name, ← toOption? Javadoc.ofDatum? javadoc, ← toList? AnnotationUse.ofDatum? annotations,
      ← Modifiers.ofDatum? modifiers, ← toList? Generic.ofDatum? generics,
      ← toList? TypeRef.ofDatum? interfaces, ← toList? Field.ofDatum? fields,
      ← toList? Method.ofDatum? methods, ← ofTypeDeclData? classes⟩
  | _ => none

def EnumDecl.ofDatum? : Datum → Option EnumDecl
  | .record [.string name, javadoc, annotations, modifiers, interfaces, constants, fields,
      initializers, constructors, methods, .list classes] => do
    return ⟨name, ← toOption? Javadoc.ofDatum? javadoc, ← toList? AnnotationUse.ofDatum? annotations,
      ← Modifiers.ofDatum? modifiers, ← toList? TypeRef.ofDatum? interfaces,
      ← toList? EnumConstant.ofDatum? constants, ← toList? Field.ofDatum? fields,
      ← toList? Initializer.ofDatum? initializers, ← toList? Constructor.ofDatum? constructors,
      ← toList? Method.ofDatum? methods, ← ofTypeDeclData? classes⟩
  | _ => none

def TypeDecl.ofDatum? : Datum → Option TypeDecl
  | .variant "class" d => (ClassDecl.ofDatum? d).map .classDecl
  | .variant "interface" d => (InterfaceDecl.ofDatum? d).map .interfaceDecl
  | .variant "enum" d => (EnumDecl.ofDatum? d).map .enumDecl
  | .variant "annotation" d => (AnnotationDecl.ofDatum? d).map .annotationDecl
  | _ => none

def ofTypeDeclData? : List Datum → Option (List TypeDecl)
  | [] => some []
  | d :: ds => do return (← TypeDecl.ofDatum? d) :: (← ofTypeDeclData? ds)

end

namespace File

def toDatum (f : File) : Datum :=
  .record [.string f.name, ofOption Javadoc.toDatum f.javadoc, .list (f.imports.map Import.toDatum),
    .list (typeDeclData f.classes)]

def ofDatum? : Datum → Option File
  | .record [.string name, javadoc, imports, classes] => do
    return ⟨name, ← toOption? Javadoc.ofDatum? javadoc, ← toList? Import.ofDatum? imports,
      ← toList? TypeDecl.ofDatum? classes⟩
  | _ => none

end File

end Scribe
