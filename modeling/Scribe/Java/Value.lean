import Scribe.Java.Fragment
import Scribe.Java.Literal

/-!
Values: literals, expressions and anonymous classes.
-/
namespace Scribe.Java

def renderValue (f : Format) (n : Node) : Value → Draft String
  | .array items => return "\x7b" ++ (← argumentList n .values items) ++ "\x7d"
  | .boolean b => return if b then "true" else "false"
  | .enumConstant type constant => do
    return (← child (n.part .type (.type type))) ++ "." ++ constant
  | .number x => return numberLiteral x
  | .reference expression => return expression
  | .text text => return quote text
  | .null => return "null"
  | .invocation target name arguments => do
    let target ← match target with
      | some t => pure ((← child (n.part .type (.type t))) ++ ".")
      | none => pure ""
    return target ++ name ++ "(" ++ (← argumentList n .arguments arguments) ++ ")"
  | .anonymous body => do
    let type ← child (n.part .type (.type body.type))
    let arguments ← argumentList n .arguments body.arguments
    let members : Members := { fields := body.fields, methods := body.methods }
    return "new " ++ type ++ "(" ++ arguments ++ ") " ++ f.block (← members.render f n)

def valueTransform : Transform where
  name := "ValueTransform"
  script ctx n := do
    let .value v := n.item | return none
    (renderValue ctx.format n v).run

end Scribe.Java
