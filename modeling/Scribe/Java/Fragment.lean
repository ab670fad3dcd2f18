import Scribe.Java.Modifiers

/-!
Pieces that several kinds of declaration share.
-/
namespace Scribe.Java

/-- A script that ends early, with nothing to render, when a child it needs gives no text. -/
abbrev Draft := OptionT Script

def child (n : Node) : Draft String := OptionT.mk (Script.text? n)

def preamble (n : Node) : Script (List String) := do
  let javadoc ← match n.item.javadoc? with
    | some j => Script.texts [n.part .javadoc (.javadoc j)]
    | none => pure []
  let annotations ← match n.item.annotations? with
    | some us => Script.texts (n.parts .annotations (us.map .annotationUse))
    | none => pure []
  return javadoc ++ annotations

def declaration (f : Format) (n : Node) (signature : String) : Script String := do
  return f.lines ((← preamble n) ++ [signature])

def commaList (ns : List Node) : Script String := do
  return ", ".intercalate (← Script.texts ns)

/-- `<A, B extends C>`, or nothing. -/
def genericList (n : Node) (gs : List Generic) : Script String := do
  match ← Script.texts (n.parts .generics (gs.map .generic)) with
  | [] => return ""
  | texts => return "<" ++ ", ".intercalate texts ++ ">"

def typeList (n : Node) (slot : Slot) (ts : List TypeRef) : Script String :=
  commaList (n.parts slot (ts.map .type))

def argumentList (n : Node) (slot : Slot) (vs : List Value) : Script String :=
  commaList (n.parts slot (vs.map .value))

structure Members where
  fields : List Field := []
  initializers : List Initializer := []
  constructors : List Constructor := []
  methods : List Method := []
  classes : List TypeDecl := []

namespace Members

def render (f : Format) (n : Node) (m : Members) : Script String := do
  let fields ← Script.texts (n.parts .fields (m.fields.map .field))
  let initializers ← Script.texts (n.parts .initializers (m.initializers.map .initializer))
  let constructors ← Script.texts (n.parts .constructors (m.constructors.map .constructor))
  let methods ← Script.texts (n.parts .methods (m.methods.map .method))
  let classes ← Script.texts (n.parts .classes (m.classes.map .ofTypeDecl))
  return f.separate [f.lines fields, f.separate initializers, f.separate constructors,
    f.separate methods, f.separate classes]

end Members

end Scribe.Java
