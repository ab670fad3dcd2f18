import Scribe.Java.Fragment
import Scribe.Text.Blank

/-!
Documentation comments: the text, then the tags after an empty line.
-/
namespace Scribe

namespace Javadoc

def isEmpty (j : Javadoc) : Bool := Text.trim j.text == "" && j.tags.isEmpty

end Javadoc

namespace Java

def commentLine (line : String) : String :=
  let line := Text.trimEnd line
  if line = "" then " *" else " * " ++ line

def commentLines (text : String) : List String := (Text.lines text).map commentLine

def renderJavadoc (f : Format) (n : Node) (j : Javadoc) : Script (Option String) := do
  if j.isEmpty then return none
  else
    let tags ← Script.texts (n.parts .tags (j.tags.map .javadocTag))
    let text := Text.trim j.text
    let gap := if text != "" && !tags.isEmpty then [" *"] else []
    return some (f.lines
      (["/**"] ++ commentLines text ++ gap ++ tags.flatMap commentLines ++ [" */"]))

def javadocTransform : Transform where
  name := "JavadocTransform"
  script ctx n := do
    let .javadoc j := n.item | return none
    renderJavadoc ctx.format n j

/-- `@name value text`, without the parts that are not set. -/
def renderJavadocTag (t : JavadocTag) : String :=
  let part := fun (p : Option String) => (p.map (" " ++ ·)).getD ""
  "@" ++ t.name ++ part t.value ++ part t.text

def javadocTagTransform : Transform where
  name := "JavadocTagTransform"
  script _ n := do
    let .javadocTag t := n.item | return none
    return some (renderJavadocTag t)

end Java

end Scribe
