import Scribe.Java.Fragment

/-!
Type declarations and files. The body of a file is rendered before its imports, which by then are
all known.
-/
namespace Scribe.Java

def typeClause (n : Node) (slot : Slot) (keyword : String) (ts : List TypeRef) : Script String := do
  if ts.isEmpty then return "" else return keyword ++ (← typeList n slot ts)

def renderClass (ctx : Context) (n : Node) (d : ClassDecl) : Draft String := do
  let f := ctx.format
  let generics ← genericList n d.generics
  let supertype ← match d.supertype with
    | some t => pure (" extends " ++ (← child (n.part .supertype (.type t))))
    | none => pure ""
  let interfaces ← typeClause n .interfaces " implements " d.interfaces
  let members : Members :=
    { fields := d.fields, initializers := d.initializers, constructors := d.constructors
      methods := d.methods, classes := d.classes }
  let body ← members.render f n
  declaration f n (modifierWords ctx.stack d.modifiers ++ "class " ++ d.name ++ generics
    ++ supertype ++ interfaces ++ " " ++ f.block body)

def classTransform : Transform where
  name := "ClassTransform"
  script ctx n := do
    let .classDecl d := n.item | return none
    (renderClass ctx n d).run

def renderInterface (ctx : Context) (n : Node) (d : InterfaceDecl) : Script String := do
  let f := ctx.format
  let generics ← genericList n d.generics
  let interfaces ← typeClause n .interfaces " extends " d.interfaces
  let members : Members := { fields := d.fields, methods := d.methods, classes := d.classes }
  let body ← members.render f n
  declaration f n (modifierWords ctx.stack d.modifiers ++ "interface " ++ d.name ++ generics
    ++ interfaces ++ " " ++ f.block body)

def interfaceTransform : Transform where
  name := "InterfaceTransform"
  script ctx n := do
    let .interfaceDecl d := n.item | return none
    return some (← renderInterface ctx n d)

/-- The constants come first; a semicolon ends them when other members follow. -/
def renderEnum (ctx : Context) (n : Node) (d : EnumDecl) : Script String := do
  let f := ctx.format
  let interfaces ← typeClause n .interfaces " implements " d.interfaces
  let constants ← Script.texts (n.parts .constants (d.constants.map .enumConstant))
  let members : Members :=
    { fields := d.fields, initializers := d.initializers, constructors := d.constructors
      methods := d.methods, classes := d.classes }
  let members ← members.render f n
  let constants := Format.join constants ("," ++ f.lineTerminator)
    ++ (if members = "" then "" else ";")
  declaration f n (modifierWords ctx.stack d.modifiers ++ "enum " ++ d.name ++ interfaces ++ " "
    ++ f.block (f.separate [constants, members]))

def enumTransform : Transform where
  name := "EnumTransform"
  script ctx n := do
    let .enumDecl d := n.item | return none
    return some (← renderEnum ctx n d)

def renderAnnotationDecl (ctx : Context) (n : Node) (d : AnnotationDecl) : Script String := do
  let f := ctx.format
  let elements ← Script.texts (n.parts .fields (d.fields.map .field))
  declaration f n (modifierWords ctx.stack d.modifiers ++ "@interface " ++ d.name ++ " "
    ++ f.block (f.lines elements))

def annotationDeclTransform : Transform where
  name := "AnnotationTransform"
  script ctx n := do
    let .annotationDecl d := n.item | return none
    return some (← renderAnnotationDecl ctx n d)

def renderEnumConstant (ctx : Context) (n : Node) (c : EnumConstant) : Script String := do
  let f := ctx.format
  let arguments ← if c.values.isEmpty then pure "" else
    pure ("(" ++ (← argumentList n .values c.values) ++ ")")
  let members : Members := { fields := c.fields, methods := c.methods }
  let body ← if c.fields.isEmpty && c.methods.isEmpty then pure "" else
    pure (" " ++ f.block (← members.render f n))
  declaration f n (c.name ++ arguments ++ body)

def enumConstantTransform : Transform where
  name := "EnumConstantTransform"
  script ctx n := do
    let .enumConstant c := n.item | return none
    return some (← renderEnumConstant ctx n c)

/-- Loads the imports that a file asks for, unless they need none or clash with a name that is
already owned. -/
def loadImports : List Import → Script Unit
  | [] => return ()
  | i :: is => do
    if !i.isStatic then
      let name := i.type.name
      let d ← Script.dependencies
      if !(d.ignores name || d.isSamePackage name || d.conflicts name) then
        let _ ← Script.load name
    loadImports is

def reserveAll : List String → Script Unit
  | [] => return ()
  | name :: names => do
    Script.reserve name
    reserveAll names

def importBlock (n : Node) : Script (List String) := do
  let d ← Script.dependencies
  Script.texts (n.parts .importBlock (d.loaded.map fun name => .importDecl { type := .ofName name }))

def staticImports (n : Node) (imports : List Import) : Script (List String) :=
  let nodes := n.parts .imports (imports.map .importDecl)
  Script.texts ((imports.zip nodes).filterMap fun (i, n) => if i.isStatic then some n else none)

structure FileText where
  javadoc : String
  package : Option String
  /-- One for each loaded name. -/
  imports : List String
  staticImports : List String
  classes : List String
deriving DecidableEq, Repr

namespace FileText

def packageLine (x : FileText) : String :=
  match x.package with
  | some package => "package " ++ package ++ ";"
  | none => ""

/-- Parts with a blank line between them, and a terminator after the last line. -/
def text (f : Format) (x : FileText) : String :=
  let text := f.separate
    [x.javadoc, x.packageLine, f.lines (x.imports ++ x.staticImports), f.separate x.classes]
  if text = "" then text else text ++ f.lineTerminator

end FileText

/-- A file owns its package unless one is already set, and gives it back at the end. -/
def renderFile (n : Node) (x : File) : Script FileText := do
  let ownsPackage ← match x.package? with
    | some package => Script.setPackage package
    | none => pure false
  reserveAll (TypeDecl.declaredNames x.package? x.classes)
  loadImports x.imports
  let classes ← Script.texts (n.parts .classes (x.classes.map .ofTypeDecl))
  let imports ← importBlock n
  let staticImports ← staticImports n x.imports
  let javadoc ← match x.javadoc with
    | some j => Script.text? (n.part .javadoc (.javadoc j))
    | none => pure none
  if ownsPackage then
    let _ ← Script.unsetPackage (x.package?.getD "")
  return { javadoc := javadoc.getD "", package := x.package?, imports, staticImports, classes }

def fileTransform : Transform where
  name := "FileTransform"
  script ctx n := do
    let .file x := n.item | return none
    return some ((← renderFile n x).text ctx.format)

end Scribe.Java
