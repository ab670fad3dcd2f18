import Scribe.Json.Schema

/-!
The JSON form of every part of a model: its fields in their order, which of them may be missing,
and the names of the variants.
-/
namespace Scribe

open Json (Shape Presence Datum Description)

inductive Form where
  | file | classDecl | interfaceDecl | enumDecl | annotationDecl | typeDecl | enumConstant | method
  | constructor | field | generic | boundKind | importDecl | javadoc | javadocTag | annotationUse
  | namedValue | initializer | modifier | type | typeArgument | value | enumValue | invocation
  | number | anonymous | document | element | declaration | tag | tagAttribute | settings
  | lineTerminator
deriving DecidableEq, Repr

namespace Form

abbrev Field := Json.Field Form

private def required (name : String) (shape : Shape Form) : Field := { name, shape }

private def optional (name : String) (shape : Shape Form) : Field :=
  { name, shape, presence := .optional }

private def many (name : String) (item : Shape Form) : Field :=
  { name, shape := .list item, presence := .sparse (.list []) }

private def flag (name : String) : Field :=
  { name, shape := .bool, presence := .defaulted (.bool false) }

private def units (names : List String) : Description Form := .choice (names.map ({ name := · }))

private def javadocField : Field := optional "javadoc" (.named .javadoc)
private def annotationsField : Field := many "annotations" (.named .annotationUse)
private def modifiersField : Field := many "modifiers" (.named .modifier)
private def genericsField : Field := many "generics" (.named .generic)
private def interfacesField : Field := many "interfaces" (.named .type)
private def fieldsField : Field := many "fields" (.named .field)
private def initializersField : Field := many "initializers" (.named .initializer)
private def constructorsField : Field := many "constructors" (.named .constructor)
private def methodsField : Field := many "methods" (.named .method)
private def classesField : Field := many "classes" (.named .typeDecl)
private def codeField : Field := many "code" .string

private def typeFields : List Field :=
  [required "name" .string, many "generics" (.named .typeArgument),
   { name := "dimensions", shape := .size, presence := .sparse (.size 0) }]

private def genericFields : List Field :=
  [optional "name" .string, many "bounds" (.named .type),
   { name := "kind", shape := .named .boundKind
     presence := .defaulted (.variant "extends" .absent) }]

def describe : Json.Schema Form
  | file =>
    .record [required "name" .string, javadocField, many "imports" (.named .importDecl), classesField]
  | classDecl =>
    .record [required "name" .string, javadocField, annotationsField, modifiersField, genericsField,
      optional "supertype" (.named .type), interfacesField, fieldsField, initializersField,
      constructorsField, methodsField, classesField]
  | interfaceDecl =>
    .record [required "name" .string, javadocField, annotationsField, modifiersField, genericsField,
      interfacesField, fieldsField, methodsField, classesField]
  | enumDecl =>
    .record [required "name" .string, javadocField, annotationsField, modifiersField,
      interfacesField, many "constants" (.named .enumConstant), fieldsField, initializersField,
      constructorsField, methodsField, classesField]
  | annotationDecl =>
    .record [required "name" .string, javadocField, annotationsField, modifiersField, fieldsField]
  | typeDecl =>
    .choice [⟨"class", some (.named .classDecl)⟩, ⟨"interface", some (.named .interfaceDecl)⟩,
      ⟨"enum", some (.named .enumDecl)⟩, ⟨"annotation", some (.named .annotationDecl)⟩]
  | enumConstant =>
    .record [required "name" .string, javadocField, many "values" (.named .value), fieldsField,
      methodsField]
  | method =>
    .record [required "name" .string, javadocField, annotationsField, modifiersField, genericsField,
      required "type" (.named .type), fieldsField, many "exceptions" (.named .type), codeField,
      flag "use_triple_dot"]
  | constructor =>
    .record [javadocField, annotationsField, modifiersField, fieldsField,
      many "exceptions" (.named .type), codeField, flag "use_triple_dot"]
  | field =>
    .record [required "name" .string, required "type" (.named .type), javadocField,
      annotationsField, modifiersField, optional "value" (.named .value)]
  | generic => .record genericFields
  | boundKind => units ["extends", "super"]
  | importDecl => .record [required "type" (.named .type), optional "member" .string]
  | javadoc =>
    .record [{ name := "text", shape := .string, presence := .defaulted (.string "") },
      many "tags" (.named .javadocTag)]
  | javadocTag =>
    .record [required "name" .string, optional "value" .string, optional "text" .string]
  | annotationUse =>
    .record [required "type" (.named .type), optional "value" (.named .value),
      many "values" (.named .namedValue)]
  | namedValue => .record [required "name" .string, required "value" (.named .value)]
  | initializer => .record [flag "static", codeField]
  | modifier =>
    units ["public", "protected", "private", "abstract", "default", "static", "final", "transient",
      "volatile", "synchronized", "native", "strictfp"]
  | type => .shorthand "TypeRepr" typeFields
  | typeArgument => .either "TypeArgument" "type" "wildcard" typeFields genericFields
  | value =>
    .choice [⟨"array", some (.list (.named .value))⟩, ⟨"boolean", some .bool⟩,
      ⟨"enum", some (.named .enumValue)⟩, ⟨"number", some (.named .number)⟩,
      ⟨"reference", some .string⟩, ⟨"text", some .string⟩, ⟨"null", none⟩,
      ⟨"invocation", some (.named .invocation)⟩, ⟨"anonymous", some (.named .anonymous)⟩]
  | enumValue => .record [required "type" (.named .type), required "constant" .string]
  | invocation =>
    .record [optional "type" (.named .type), required "name" .string, many "args" (.named .value)]
  | number =>
    .choice [⟨"int", some .integer⟩, ⟨"long", some .integer⟩, ⟨"float", some .binary32⟩,
      ⟨"double", some .binary64⟩]
  | anonymous =>
    .record [required "type" (.named .type), many "args" (.named .value), fieldsField, methodsField]
  | document =>
    .record [{ name := "elements", shape := .list (.named .element)
               presence := .defaulted (.list []) }]
  | element =>
    .choice [⟨"declaration", some (.named .declaration)⟩, ⟨"tag", some (.named .tag)⟩,
      ⟨"text", some .string⟩]
  | declaration =>
    .record [required "version" .string, optional "encoding" .string, optional "standalone" .bool]
  | tag =>
    .record [required "name" .string, many "attributes" (.named .tagAttribute),
      many "children" (.named .element)]
  | tagAttribute => .record [required "name" .string, optional "value" .string]
  | settings =>
    .record [{ name := "indent", shape := .size, presence := .defaulted (.size 4) },
      { name := "line_terminator", shape := .named .lineTerminator
        presence := .defaulted (.variant "lf" .absent) },
      { name := "max_depth", shape := .size, presence := .defaulted (.size 256) },
      { name := "ignore_packages", shape := .list .string, presence := .defaulted (.list []) },
      { name := "ignore_patterns", shape := .list .string, presence := .defaulted (.list []) }]
  | lineTerminator => units ["lf", "crlf"]

end Form

end Scribe
