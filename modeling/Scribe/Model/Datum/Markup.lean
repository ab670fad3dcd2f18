import Scribe.Model.Datum.Basic
import Scribe.Model.Markup

/-!
Markup documents as data and back.
-/
namespace Scribe

open Json (Datum)
open Json.Datum (ofOption toOption? toString? toBool? toList?)

namespace MarkupDeclaration

def toDatum (d : MarkupDeclaration) : Datum :=
  .record [.string d.version, ofOption .string d.encoding, ofOption .bool d.standalone]

def ofDatum? : Datum → Option MarkupDeclaration
  | .record [.string version, encoding, standalone] => do
    return ⟨version, ← toOption? toString? encoding, ← toOption? toBool? standalone⟩
  | _ => none

end MarkupDeclaration

namespace Attribute

def toDatum (a : Attribute) : Datum := .record [.string a.name, ofOption .string a.value]

def ofDatum? : Datum → Option Attribute
  | .record [.string name, value] => do return ⟨name, ← toOption? toString? value⟩
  | _ => none

end Attribute

namespace CharacterData

def toDatum (t : CharacterData) : Datum := .string t.value

def ofDatum? (d : Datum) : Option CharacterData := (toString? d).map CharacterData.mk

end CharacterData

mutual

def Tag.toDatum : Tag → Datum
  | ⟨name, attributes, children⟩ =>
    .record [.string name, .list (attributes.map Attribute.toDatum), .list (elementData children)]

def Element.toDatum : Element → Datum
  | .declaration d => .variant "declaration" d.toDatum
  | .tag t => .variant "tag" t.toDatum
  | .text t => .variant "text" t.toDatum

def elementData : List Element → List Datum
  | [] => []
  | e :: es => e.toDatum :: elementData es

end

mutual

def Tag.ofDatum? : Datum → Option Tag
  | .record [.string name, attributes, .list children] => do
    return ⟨name, ← toList? Attribute.ofDatum? attributes, ← ofElementData? children⟩
  | _ => none

def Element.ofDatum? : Datum → Option Element
  | .variant "declaration" d => (MarkupDeclaration.ofDatum? d).map .declaration
  | .variant "tag" d => (Tag.ofDatum? d).map .tag
  | .variant "text" d => (CharacterData.ofDatum? d).map .text
  | _ => none

def ofElementData? : List Datum → Option (List Element)
  | [] => some []
  | d :: ds => do return (← Element.ofDatum? d) :: (← ofElementData? ds)

end

namespace Document

def toDatum (d : Document) : Datum := .record [.list (elementData d.elements)]

def ofDatum? : Datum → Option Document
  | .record [elements] => do return ⟨← toList? Element.ofDatum? elements⟩
  | _ => none

end Document

end Scribe
