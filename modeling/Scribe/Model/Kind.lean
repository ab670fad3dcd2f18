/-!
The kinds of node that rendering tells apart, the families they form and the capabilities they
carry. The order in which a kind lists its capabilities decides between transforms registered for
two of them.
-/
namespace Scribe

/-- A closed group of kinds. -/
inductive Family where
  | typeDecl | value | element
deriving DecidableEq, Repr

/-- A trait that kinds of different families may share. -/
inductive Capability where
  | name | modifiers | javadoc | javadocTags | annotationUses | generics | supertype | interfaces
  | fields | initializers | constructors | methods | classes | imports | type | value | throws
  | code | attributes | children
deriving DecidableEq, Repr

inductive Kind where
  | file | classDecl | interfaceDecl | enumDecl | annotationDecl | enumConstant | method
  | constructor | field | generic | importDecl | javadoc | javadocTag | annotationUse | initializer
  | type | arrayValue | booleanValue | enumValue | numberValue | referenceValue | textValue
  | nullValue | invocationValue | anonymousValue | document | declaration | tag | tagAttribute | text
deriving DecidableEq, Repr

namespace Family

def name : Family → String
  | typeDecl => "ClassOrInterface"
  | value => "Value"
  | element => "Element"

def all : List Family := [typeDecl, value, element]

end Family

namespace Capability

def label : Capability → String
  | name => "HasName"
  | modifiers => "HasModifiers"
  | javadoc => "HasJavadoc"
  | javadocTags => "HasJavadocTags"
  | annotationUses => "HasAnnotationUsages"
  | generics => "HasGenerics"
  | supertype => "HasSupertype"
  | interfaces => "HasInterfaces"
  | fields => "HasFields"
  | initializers => "HasInitializers"
  | constructors => "HasConstructors"
  | methods => "HasMethods"
  | classes => "HasClasses"
  | imports => "HasImports"
  | type => "HasType"
  | value => "HasValue"
  | throws => "HasThrows"
  | code => "HasCode"
  | attributes => "HasAttributes"
  | children => "HasChildren"

def all : List Capability :=
  [name, modifiers, javadoc, javadocTags, annotationUses, generics, supertype, interfaces, fields,
   initializers, constructors, methods, classes, imports, type, value, throws, code, attributes,
   children]

end Capability

namespace Kind

def all : List Kind :=
  [file, classDecl, interfaceDecl, enumDecl, annotationDecl, enumConstant, method, constructor,
   field, generic, importDecl, javadoc, javadocTag, annotationUse, initializer, type, arrayValue,
   booleanValue, enumValue, numberValue, referenceValue, textValue, nullValue, invocationValue,
   anonymousValue, document, declaration, tag,
   tagAttribute, text]

def index (k : Kind) : Nat := k.ctorIdx

def name : Kind → String
  | file => "File"
  | classDecl => "Class"
  | interfaceDecl => "Interface"
  | enumDecl => "Enum"
  | annotationDecl => "Annotation"
  | enumConstant => "EnumConstant"
  | method => "Method"
  | constructor => "Constructor"
  | field => "Field"
  | generic => "Generic"
  | importDecl => "Import"
  | javadoc => "Javadoc"
  | javadocTag => "JavadocTag"
  | annotationUse => "AnnotationUsage"
  | initializer => "Initializer"
  | type => "Type"
  | arrayValue => "ArrayValue"
  | booleanValue => "BooleanValue"
  | enumValue => "EnumValue"
  | numberValue => "NumberValue"
  | referenceValue => "ReferenceValue"
  | textValue => "TextValue"
  | nullValue => "NullValue"
  | invocationValue => "InvocationValue"
  | anonymousValue => "AnonymousValue"
  | document => "Document"
  | declaration => "Declaration"
  | tag => "Tag"
  | tagAttribute => "Attribute"
  | text => "Text"

def family : Kind → Option Family
  | classDecl | interfaceDecl | enumDecl | annotationDecl => some .typeDecl
  | arrayValue | booleanValue | enumValue | numberValue | referenceValue | textValue | nullValue
  | invocationValue | anonymousValue => some .value
  | declaration | tag | text => some .element
  | _ => none

/-- In order of precedence. -/
def capabilities : Kind → List Capability
  | file => [.name, .javadoc, .imports, .classes]
  | classDecl =>
    [.name, .modifiers, .javadoc, .annotationUses, .generics, .supertype, .interfaces, .fields,
     .initializers, .constructors, .methods, .classes]
  | interfaceDecl =>
    [.name, .modifiers, .javadoc, .annotationUses, .generics, .interfaces, .fields, .methods,
     .classes]
  | enumDecl =>
    [.name, .modifiers, .javadoc, .annotationUses, .interfaces, .fields, .initializers,
     .constructors, .methods, .classes]
  | annotationDecl => [.name, .modifiers, .javadoc, .annotationUses, .fields]
  | enumConstant => [.name, .javadoc, .fields, .methods]
  | method =>
    [.name, .modifiers, .javadoc, .annotationUses, .generics, .type, .fields, .throws, .code]
  | constructor => [.modifiers, .javadoc, .annotationUses, .fields, .throws, .code]
  | field => [.name, .modifiers, .javadoc, .annotationUses, .type, .value]
  | generic | javadocTag | type | invocationValue => [.name]
  | importDecl | enumValue => [.type]
  | javadoc => [.javadocTags]
  | annotationUse => [.type, .value]
  | initializer => [.code]
  | anonymousValue => [.type, .fields, .methods]
  | document => [.children]
  | tag => [.name, .attributes, .children]
  | tagAttribute => [.name, .value]
  | arrayValue | booleanValue | numberValue | referenceValue | textValue | nullValue | declaration
  | text => []

def has (k : Kind) (c : Capability) : Bool := k.capabilities.contains c

theorem getElem?_all_index (k : Kind) : all[k.index]? = some k := by cases k <;> rfl

end Kind

end Scribe
