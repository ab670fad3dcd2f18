/-!
Markup documents: declarations, tags with attributes, and the text between them.
-/
namespace Scribe

/-- `<?xml version="1.0" encoding="UTF-8"?>` -/
structure MarkupDeclaration where
  version : String
  encoding : Option String := none
  standalone : Option Bool := none
deriving DecidableEq, Repr

/-- `name="value"`, or the name alone. -/
structure Attribute where
  name : String
  value : Option String := none
deriving DecidableEq, Repr

/-- Character data; it is escaped when it is rendered. -/
structure CharacterData where
  value : String
deriving DecidableEq, Repr

mutual

structure Tag where
  name : String
  attributes : List Attribute := []
  children : List Element := []

inductive Element where
  | declaration (declaration : MarkupDeclaration)
  | tag (tag : Tag)
  | text (text : CharacterData)

end

structure Document where
  elements : List Element := []

namespace MarkupDeclaration

def xml : MarkupDeclaration := { version := "1.0", encoding := some "UTF-8" }

end MarkupDeclaration

namespace Tag

def addAttribute (t : Tag) (a : Attribute) : Tag := { t with attributes := t.attributes ++ [a] }

def addChild (t : Tag) (e : Element) : Tag := { t with children := t.children ++ [e] }

def addText (t : Tag) (text : String) : Tag := t.addChild (.text ⟨text⟩)

end Tag

namespace Document

def add (d : Document) (e : Element) : Document := { d with elements := d.elements ++ [e] }

end Document

end Scribe
