import Scribe.Java.Comment
import Scribe.Java.Member
import Scribe.Java.Reference
import Scribe.Java.TypeDecl
import Scribe.Java.Value
import Scribe.Render.Generator

/-!
The Java binding: its transforms, the names it never imports, and sessions ready to render a file.
-/
namespace Scribe.Java

def primitives : List String :=
  ["byte", "short", "int", "long", "float", "double", "boolean", "char", "void"]

/-- Primitive types, the members of `java.lang` and names without a package need no import. -/
def ignorePatterns : List IgnorePattern :=
  primitives.map .exact ++ [.members "java.lang", .unqualified]

def registrations : List (Key × Transform) :=
  [(.kind .file, fileTransform), (.kind .classDecl, classTransform),
   (.kind .interfaceDecl, interfaceTransform), (.kind .enumDecl, enumTransform),
   (.kind .annotationDecl, annotationDeclTransform), (.kind .enumConstant, enumConstantTransform),
   (.kind .method, methodTransform), (.kind .constructor, constructorTransform),
   (.kind .field, fieldTransform), (.kind .initializer, initializerTransform),
   (.kind .type, typeTransform), (.kind .generic, genericTransform),
   (.kind .importDecl, importTransform), (.kind .annotationUse, annotationUseTransform),
   (.kind .javadoc, javadocTransform), (.kind .javadocTag, javadocTagTransform),
   (.family .value, valueTransform)]

def factory : Factory :=
  registrations.foldl (fun f (k, t) => f.install k t) { name := "java" }

def dependencies : Dependencies := { ignored := ignorePatterns }

def generator : StateM Format Generator := Generator.new factory dependencies

end Scribe.Java
