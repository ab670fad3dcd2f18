import Scribe.Model.TypeDecl

/-!
Building declarations step by step. Lists grow at their end; what a declaration has once is
replaced.
-/
namespace Scribe

class Declarator (α : Type) where
  withJavadoc : α → Javadoc → α
  annotate : α → AnnotationUse → α
  editModifiers : α → (Modifiers → Modifiers) → α

export Declarator (withJavadoc annotate editModifiers)

section

variable {α : Type} [Declarator α]

def addModifier (d : α) (m : Modifier) : α := editModifiers d (·.insert m)

def addModifiers (d : α) (ms : List Modifier) : α := editModifiers d (·.insertAll ms)

end

instance : Declarator ClassDecl where
  withJavadoc d j := { d with javadoc := some j }
  annotate d u := { d with annotations := d.annotations ++ [u] }
  editModifiers d f := { d with modifiers := f d.modifiers }

instance : Declarator InterfaceDecl where
  withJavadoc d j := { d with javadoc := some j }
  annotate d u := { d with annotations := d.annotations ++ [u] }
  editModifiers d f := { d with modifiers := f d.modifiers }

instance : Declarator EnumDecl where
  withJavadoc d j := { d with javadoc := some j }
  annotate d u := { d with annotations := d.annotations ++ [u] }
  editModifiers d f := { d with modifiers := f d.modifiers }

instance : Declarator AnnotationDecl where
  withJavadoc d j := { d with javadoc := some j }
  annotate d u := { d with annotations := d.annotations ++ [u] }
  editModifiers d f := { d with modifiers := f d.modifiers }

instance : Declarator Method where
  withJavadoc d j := { d with javadoc := some j }
  annotate d u := { d with annotations := d.annotations ++ [u] }
  editModifiers d f := { d with modifiers := f d.modifiers }

instance : Declarator Constructor where
  withJavadoc d j := { d with javadoc := some j }
  annotate d u := { d with annotations := d.annotations ++ [u] }
  editModifiers d f := { d with modifiers := f d.modifiers }

instance : Declarator Field where
  withJavadoc d j := { d with javadoc := some j }
  annotate d u := { d with annotations := d.annotations ++ [u] }
  editModifiers d f := { d with modifiers := f d.modifiers }

namespace ClassDecl

def addGeneric (d : ClassDecl) (g : Generic) : ClassDecl := { d with generics := d.generics ++ [g] }

def addInterface (d : ClassDecl) (t : TypeRef) : ClassDecl :=
  { d with interfaces := d.interfaces ++ [t] }

def addField (d : ClassDecl) (f : Field) : ClassDecl := { d with fields := d.fields ++ [f] }

def addInitializer (d : ClassDecl) (i : Initializer) : ClassDecl :=
  { d with initializers := d.initializers ++ [i] }

def addConstructor (d : ClassDecl) (c : Constructor) : ClassDecl :=
  { d with constructors := d.constructors ++ [c] }

def addMethod (d : ClassDecl) (m : Method) : ClassDecl := { d with methods := d.methods ++ [m] }

def addNested (d : ClassDecl) (t : TypeDecl) : ClassDecl := { d with classes := d.classes ++ [t] }

end ClassDecl

namespace InterfaceDecl

def addGeneric (d : InterfaceDecl) (g : Generic) : InterfaceDecl :=
  { d with generics := d.generics ++ [g] }

def addInterface (d : InterfaceDecl) (t : TypeRef) : InterfaceDecl :=
  { d with interfaces := d.interfaces ++ [t] }

def addField (d : InterfaceDecl) (f : Field) : InterfaceDecl := { d with fields := d.fields ++ [f] }

def addMethod (d : InterfaceDecl) (m : Method) : InterfaceDecl :=
  { d with methods := d.methods ++ [m] }

def addNested (d : InterfaceDecl) (t : TypeDecl) : InterfaceDecl :=
  { d with classes := d.classes ++ [t] }

end InterfaceDecl

namespace EnumDecl

def addInterface (d : EnumDecl) (t : TypeRef) : EnumDecl :=
  { d with interfaces := d.interfaces ++ [t] }

def addConstant (d : EnumDecl) (c : EnumConstant) : EnumDecl :=
  { d with constants := d.constants ++ [c] }

def addField (d : EnumDecl) (f : Field) : EnumDecl := { d with fields := d.fields ++ [f] }

def addConstructor (d : EnumDecl) (c : Constructor) : EnumDecl :=
  { d with constructors := d.constructors ++ [c] }

def addMethod (d : EnumDecl) (m : Method) : EnumDecl := { d with methods := d.methods ++ [m] }

end EnumDecl

namespace AnnotationDecl

def addElement (d : AnnotationDecl) (f : Field) : AnnotationDecl :=
  { d with fields := d.fields ++ [f] }

end AnnotationDecl

namespace EnumConstant

def addValue (c : EnumConstant) (v : Value) : EnumConstant := { c with values := c.values ++ [v] }

def addField (c : EnumConstant) (f : Field) : EnumConstant := { c with fields := c.fields ++ [f] }

def addMethod (c : EnumConstant) (m : Method) : EnumConstant := { c with methods := c.methods ++ [m] }

end EnumConstant

namespace Constructor

def addParameter (c : Constructor) (f : Field) : Constructor := { c with fields := c.fields ++ [f] }

def addException (c : Constructor) (t : TypeRef) : Constructor :=
  { c with exceptions := c.exceptions ++ [t] }

def addLine (c : Constructor) (line : String) : Constructor := { c with code := c.code ++ [line] }

end Constructor

namespace Initializer

def addLine (i : Initializer) (line : String) : Initializer := { i with code := i.code ++ [line] }

end Initializer

namespace File

def addImport (f : File) (i : Import) : File := { f with imports := f.imports ++ [i] }

def add (f : File) (d : TypeDecl) : File := { f with classes := f.classes ++ [d] }

end File

end Scribe
