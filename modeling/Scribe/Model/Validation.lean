import Scribe.Name
import Scribe.Text.Blank
import Scribe.Model.Kind
import Scribe.Model.TypeDecl
import Scribe.Model.Markup

/-!
Validation: every name that must be an identifier, a dotted name or a markup name is one. The first
offender is reported, a node's own name before what it contains.
-/
namespace Scribe

inductive ModelError where
  | missingName (kind : Kind)
  | invalidIdentifier (kind : Kind) (name : String)
  | invalidTypeName (name : String)
deriving DecidableEq, Repr

namespace ModelError

def message : ModelError → String
  | missingName kind => s!"{kind.name} requires a name"
  | invalidIdentifier kind name => s!"`{name}` is not a valid name for {kind.name}"
  | invalidTypeName name => s!"`{name}` is not a valid type name"

end ModelError

abbrev Validity := Except ModelError Unit

def checkIdentifier (kind : Kind) (name : String) : Validity :=
  if name = "" then .error (.missingName kind)
  else if Name.isIdentifier name then .ok ()
  else .error (.invalidIdentifier kind name)

def checkMarkupName (kind : Kind) (name : String) : Validity :=
  if name = "" then .error (.missingName kind)
  else if Name.isMarkup name then .ok ()
  else .error (.invalidIdentifier kind name)

mutual

def TypeRef.validate : TypeRef → Validity
  | ⟨name, arguments, _⟩ =>
    if Name.isQualified name then validateArguments arguments else .error (.invalidTypeName name)

/-- As an argument, a generic stands for a wildcard and has no name. -/
def TypeArgument.validate : TypeArgument → Validity
  | .type t => t.validate
  | .wildcard g => g.validateWildcard

def Generic.validateWildcard : Generic → Validity
  | ⟨some name, _, _⟩ => .error (.invalidTypeName name)
  | ⟨none, bounds, _⟩ => validateTypes bounds

def validateArguments : List TypeArgument → Validity
  | [] => .ok ()
  | a :: as => do a.validate; validateArguments as

def validateTypes : List TypeRef → Validity
  | [] => .ok ()
  | t :: ts => do t.validate; validateTypes ts

end

/-- Of an annotation, only its type is checked. -/
def validateAnnotations (us : List AnnotationUse) : Validity := validateTypes (us.map (·.type))

mutual

def Value.validate : Value → Validity
  | .array items => validateValues items
  | .enumConstant type constant => do
    type.validate
    checkIdentifier .enumValue constant
  | .invocation target name arguments => do
    target.forM TypeRef.validate
    checkIdentifier .invocationValue name
    validateValues arguments
  | .anonymous body => body.validate
  | .boolean _ | .number _ | .reference _ | .text _ | .null => .ok ()

def Anonymous.validate : Anonymous → Validity
  | ⟨type, arguments, fields, methods⟩ => do
    type.validate
    validateValues arguments
    validateFields fields
    validateMethods methods

def Field.validate : Field → Validity
  | ⟨name, type, _, annotations, _, value⟩ => do
    checkIdentifier .field name
    type.validate
    validateAnnotations annotations
    match value with
    | some v => v.validate
    | none => .ok ()

def Method.validate : Method → Validity
  | ⟨name, _, annotations, _, _, type, fields, exceptions, _, _⟩ => do
    checkIdentifier .method name
    type.validate
    validateTypes exceptions
    validateAnnotations annotations
    validateFields fields

def validateValues : List Value → Validity
  | [] => .ok ()
  | v :: vs => do v.validate; validateValues vs

def validateFields : List Field → Validity
  | [] => .ok ()
  | f :: fs => do f.validate; validateFields fs

def validateMethods : List Method → Validity
  | [] => .ok ()
  | m :: ms => do m.validate; validateMethods ms

end

def Constructor.validate (c : Constructor) : Validity := do
  validateTypes c.exceptions
  validateAnnotations c.annotations
  validateFields c.fields

def EnumConstant.validate (c : EnumConstant) : Validity := do
  checkIdentifier .enumConstant c.name
  validateValues c.values
  validateFields c.fields
  validateMethods c.methods

def AnnotationDecl.validate (d : AnnotationDecl) : Validity := do
  checkIdentifier .annotationDecl d.name
  validateAnnotations d.annotations
  validateFields d.fields

mutual

def ClassDecl.validate : ClassDecl → Validity
  | { name, annotations, supertype, interfaces, fields, constructors, methods, classes, .. } => do
    checkIdentifier .classDecl name
    supertype.forM TypeRef.validate
    validateTypes interfaces
    constructors.forM Constructor.validate
    validateAnnotations annotations
    validateFields fields
    validateMethods methods
    validateDecls classes

def InterfaceDecl.validate : InterfaceDecl → Validity
  | { name, annotations, interfaces, fields, methods, classes, .. } => do
    checkIdentifier .interfaceDecl name
    validateTypes interfaces
    validateAnnotations annotations
    validateFields fields
    validateMethods methods
    validateDecls classes

def EnumDecl.validate : EnumDecl → Validity
  | { name, annotations, interfaces, constants, fields, constructors, methods, classes, .. } => do
    checkIdentifier .enumDecl name
    validateTypes interfaces
    constants.forM EnumConstant.validate
    constructors.forM Constructor.validate
    validateAnnotations annotations
    validateFields fields
    validateMethods methods
    validateDecls classes

def TypeDecl.validate : TypeDecl → Validity
  | .classDecl d => d.validate
  | .interfaceDecl d => d.validate
  | .enumDecl d => d.validate
  | .annotationDecl d => d.validate

def validateDecls : List TypeDecl → Validity
  | [] => .ok ()
  | d :: ds => do d.validate; validateDecls ds

end

namespace Import

def validate (i : Import) : Validity := do
  i.type.validate
  i.member.forM (checkIdentifier .importDecl)

end Import

namespace File

def checkName (f : File) : Validity :=
  if Text.allBlank f.name then .error (.missingName .file) else .ok ()

def validate (f : File) : Validity := do
  f.checkName
  f.imports.forM Import.validate
  validateDecls f.classes

end File

mutual

def Tag.validate : Tag → Validity
  | ⟨name, attributes, children⟩ => do
    checkMarkupName .tag name
    attributes.forM (checkMarkupName .tagAttribute ·.name)
    validateElements children

def Element.validate : Element → Validity
  | .tag t => t.validate
  | .declaration _ | .text _ => .ok ()

def validateElements : List Element → Validity
  | [] => .ok ()
  | e :: es => do e.validate; validateElements es

end

namespace Document

def validate (d : Document) : Validity := validateElements d.elements

end Document

/-! Construction that checks what it is given. -/

def TypeRef.ofName? (name : String) : Except ModelError TypeRef := do
  let t := TypeRef.ofName name
  t.validate
  return t

def File.ofName? (name : String) : Except ModelError File := do
  let f : File := { name }
  f.checkName
  return f

def ClassDecl.ofName? (name : String) : Except ModelError ClassDecl := do
  checkIdentifier .classDecl name
  return { name }

def Method.ofName? (name : String) (type : TypeRef) : Except ModelError Method := do
  checkIdentifier .method name
  type.validate
  return { name, type }

def Field.ofName? (name : String) (type : TypeRef) : Except ModelError Field := do
  let f : Field := { name, type }
  f.validate
  return f

end Scribe
