import Scribe.Render.Generator

/-!
The markup binding: documents of tags, attributes and escaped text. Markup has no imports, so its
sessions use no names.
-/
namespace Scribe.Markup

def escapeChar : Char → List Char
  | '&' => ['&', 'a', 'm', 'p', ';']
  | '<' => ['&', 'l', 't', ';']
  | '>' => ['&', 'g', 't', ';']
  | '"' => ['&', 'q', 'u', 'o', 't', ';']
  | c => [c]

def escape (text : String) : String := Text.substitute escapeChar text

def quoted (text : String) : String := "\"" ++ escape text ++ "\""

def renderDocument (f : Format) (n : Node) (d : Document) : Script String := do
  let text := f.lines (← Script.texts (n.parts .elements (d.elements.map .ofElement)))
  return if text = "" then text else text ++ f.lineTerminator

def documentTransform : Transform where
  name := "DocumentTransform"
  script ctx n := do
    let .document d := n.item | return none
    return some (← renderDocument ctx.format n d)

def renderDeclaration (d : MarkupDeclaration) : String :=
  "<?xml version=" ++ quoted d.version
    ++ (d.encoding.map (" encoding=" ++ quoted ·)).getD ""
    ++ (d.standalone.map fun b => " standalone=" ++ quoted (if b then "yes" else "no")).getD ""
    ++ "?>"

def declarationTransform : Transform where
  name := "DeclarationTransform"
  script _ n := do
    let .declaration d := n.item | return none
    return some (renderDeclaration d)

/-- A tag without children closes itself, a text alone stays on the line of its tag, and other
children have a line each, one level deeper. -/
def renderTag (f : Format) (n : Node) (t : Tag) : Script String := do
  let attributes ← Script.texts (n.parts .attributes (t.attributes.map .tagAttribute))
  let start := "<" ++ t.name ++ String.join (attributes.map (" " ++ ·))
  let close := "</" ++ t.name ++ ">"
  match t.children with
  | [] => return start ++ "/>"
  | [.text text] =>
    let text ← Script.text? (n.part .children (.text text))
    return start ++ ">" ++ text.getD "" ++ close
  | children =>
    let children ← Script.texts (n.parts .children (children.map .ofElement))
    return f.lines [start ++ ">", f.indent (f.lines children), close]

def tagTransform : Transform where
  name := "TagTransform"
  script ctx n := do
    let .tag t := n.item | return none
    return some (← renderTag ctx.format n t)

def renderAttribute (a : Attribute) : String :=
  match a.value with
  | some v => a.name ++ "=" ++ quoted v
  | none => a.name

def attributeTransform : Transform where
  name := "AttributeTransform"
  script _ n := do
    let .tagAttribute a := n.item | return none
    return some (renderAttribute a)

def textTransform : Transform where
  name := "TextTransform"
  script _ n := do
    let .text t := n.item | return none
    return some (escape t.value)

def registrations : List (Key × Transform) :=
  [(.kind .document, documentTransform), (.kind .declaration, declarationTransform),
   (.kind .tag, tagTransform), (.kind .tagAttribute, attributeTransform),
   (.kind .text, textTransform)]

def factory : Factory :=
  registrations.foldl (fun f (k, t) => f.install k t) { name := "markup" }

def generator : StateM Format Generator := Generator.new factory {}

end Scribe.Markup
