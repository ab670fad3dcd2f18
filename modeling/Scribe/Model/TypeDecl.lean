import Scribe.Model.Value

/-!
Declarations of types, and the files that hold them.
-/
namespace Scribe

/-- `import a.b.C;` or, with a member, `import static a.b.C.member;`. -/
structure Import where
  type : TypeRef
  member : Option String := none

/-- A block that runs when a class or an object is made. -/
structure Initializer where
  isStatic : Bool := false
  code : List String := []
deriving DecidableEq, Repr

structure Constructor where
  javadoc : Option Javadoc := none
  annotations : List AnnotationUse := []
  modifiers : Modifiers := {}
  /-- The parameters. -/
  fields : List Field := []
  exceptions : List TypeRef := []
  code : List String := []
  /-- Writes an array type of the last parameter with three dots. -/
  tripleDot : Bool := false

structure EnumConstant where
  name : String
  javadoc : Option Javadoc := none
  /-- The arguments of the constructor. -/
  values : List Value := []
  fields : List Field := []
  methods : List Method := []

/-- An annotation type; its fields are its elements. -/
structure AnnotationDecl where
  name : String
  javadoc : Option Javadoc := none
  annotations : List AnnotationUse := []
  modifiers : Modifiers := {}
  fields : List Field := []

mutual

structure ClassDecl where
  name : String
  javadoc : Option Javadoc := none
  annotations : List AnnotationUse := []
  modifiers : Modifiers := {}
  generics : List Generic := []
  supertype : Option TypeRef := none
  interfaces : List TypeRef := []
  fields : List Field := []
  initializers : List Initializer := []
  constructors : List Constructor := []
  methods : List Method := []
  classes : List TypeDecl := []

structure InterfaceDecl where
  name : String
  javadoc : Option Javadoc := none
  annotations : List AnnotationUse := []
  modifiers : Modifiers := {}
  generics : List Generic := []
  interfaces : List TypeRef := []
  fields : List Field := []
  methods : List Method := []
  classes : List TypeDecl := []

structure EnumDecl where
  name : String
  javadoc : Option Javadoc := none
  annotations : List AnnotationUse := []
  modifiers : Modifiers := {}
  interfaces : List TypeRef := []
  constants : List EnumConstant := []
  fields : List Field := []
  initializers : List Initializer := []
  constructors : List Constructor := []
  methods : List Method := []
  classes : List TypeDecl := []

inductive TypeDecl where
  | classDecl (decl : ClassDecl)
  | interfaceDecl (decl : InterfaceDecl)
  | enumDecl (decl : EnumDecl)
  | annotationDecl (decl : AnnotationDecl)

end

/-- One source file. The directories in its name are its package: `com/acme/Widget.java` lies in
`com.acme`. -/
structure File where
  name : String
  javadoc : Option Javadoc := none
  imports : List Import := []
  classes : List TypeDecl := []

namespace Import

def isStatic (i : Import) : Bool := i.member.isSome

end Import

namespace TypeDecl

def name : TypeDecl → String
  | classDecl d => d.name
  | interfaceDecl d => d.name
  | enumDecl d => d.name
  | annotationDecl d => d.name

def classes : TypeDecl → List TypeDecl
  | classDecl d => d.classes
  | interfaceDecl d => d.classes
  | enumDecl d => d.classes
  | annotationDecl _ => []

def qualify (package : Option String) (name : String) : String :=
  match package with
  | some package => package ++ "." ++ name
  | none => name

mutual

def qualifiedNames (package : Option String) : TypeDecl → List String
  | classDecl { name, classes, .. } | interfaceDecl { name, classes, .. }
  | enumDecl { name, classes, .. } =>
    declaredNames (some (qualify package name)) classes ++ [qualify package name]
  | annotationDecl { name, .. } => [qualify package name]

/-- The qualified names of all declarations of a list, inner ones before those around them. -/
def declaredNames (package : Option String) : List TypeDecl → List String
  | [] => []
  | d :: ds => d.qualifiedNames package ++ declaredNames package ds

end

end TypeDecl

namespace File

def package? (f : File) : Option String :=
  (Text.splitLast? '/' f.name).map fun (directory, _) =>
    directory.map fun c => if c = '/' then '.' else c

end File

end Scribe
