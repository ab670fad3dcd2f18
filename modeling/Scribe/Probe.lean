import Scribe.Java.Modifiers

/-!
Transforms that write down what a transform sees: its node, the stack, and how its children are
rendered. Registered in a factory, they show how a set of factories works together.
-/
namespace Scribe

namespace Node

def describe (n : Node) : String :=
  match n.name? with
  | some own => n.kind.name ++ ":" ++ own
  | none => n.kind.name

def probed (n : Node) : List Node :=
  n.parts .fields ((n.item.fields?.getD []).map .field)
    ++ n.parts .methods ((n.item.methods?.getD []).map .method)
    ++ match n.item with
      | .file x => n.parts .classes (x.classes.map .ofTypeDecl)
      | .classDecl x => n.parts .classes (x.classes.map .ofTypeDecl)
      | .interfaceDecl x => n.parts .classes (x.classes.map .ofTypeDecl)
      | .enumDecl x => n.parts .classes (x.classes.map .ofTypeDecl)
      | .field x => [n.part .type (.type x.type)]
      | .type x => n.parts .arguments (x.arguments.map .ofArgument)
      | .value (.array items) => n.parts .values (items.map .value)
      | .document x => n.parts .elements (x.elements.map .ofElement)
      | .tag x =>
        n.parts .attributes (x.attributes.map .tagAttribute)
          ++ n.parts .children (x.children.map .ofElement)
      | _ => []

end Node

inductive Probe where
  | text (text : String)
  | nothing
  | kind
  | name
  /-- Gives text for nodes of one name only. -/
  | only (name : String)
  | children
  | stack
  | nearest (kind : Option Kind)
  | implicit
  | provenance
  | all
  | load
  | loadOnly
  | block
deriving DecidableEq, Repr

namespace Probe

def orDash (n : Option Node) : String := (n.map Node.describe).getD "-"

def chain (ns : List Node) : String := ">".intercalate (ns.map Node.describe)

def bracketed (texts : List String) : String := "[" ++ ",".intercalate texts ++ "]"

def renderings : List Node → Script (List Rendered)
  | [] => return []
  | n :: ns => do
    let r ← Script.first n .done
    return r.toList ++ (← renderings ns)

def allRenderings : List Node → Script (List Rendered)
  | [] => return []
  | n :: ns => do
    let rs ← Script.every n .done
    return rs ++ (← allRenderings ns)

def origin (r : Rendered) : String := r.transform ++ "@" ++ chain r.ancestors ++ "<" ++ r.text

def script (p : Probe) (ctx : Context) (n : Node) : Script (Option String) :=
  match p with
  | text t => return some t
  | nothing => return none
  | kind => return some n.kind.name
  | name => return n.name?
  | only wanted => return if n.name? == some wanted then some ("only " ++ wanted) else none
  | children => do
    return some (n.describe ++ bracketed (← Script.texts n.probed))
  | stack => do
    let s := ctx.stack
    let inner ← Script.texts n.probed
    return some ("(" ++ toString s.depth ++ " " ++ (if s.nodes.isEmpty then "true" else "false")
      ++ " top=" ++ orDash s.top? ++ " parent=" ++ orDash s.parent? ++ " decl="
      ++ orDash s.enclosing? ++ " up=" ++ chain s.nodes ++ " down=" ++ chain s.chain ++ ")"
      ++ String.join inner)
  | nearest k => do
    let found := k.bind ctx.stack.nearest?
    return some (n.describe ++ "~" ++ orDash found ++ bracketed (← Script.texts n.probed))
  | implicit => do
    let words := " ".intercalate ((Java.implicitModifiers ctx.stack).map (·.keyword))
    let written := (n.item.modifiers?.map (Java.modifierWords ctx.stack)).getD ""
    return some (n.describe ++ "<" ++ words ++ "|" ++ written ++ ">"
      ++ bracketed (← Script.texts n.probed))
  | provenance => do
    let rs ← renderings n.probed
    return some (n.describe ++ "(" ++ ";".intercalate (rs.map origin) ++ ")")
  | all => do
    let rs ← allRenderings n.probed
    return some (n.describe ++ "(" ++ ";".intercalate (rs.map fun r => r.factory ++ "/" ++ origin r)
      ++ ")")
  | load => do
    let some own := n.name? | return none
    let new ← Script.load own
    return some (own ++ "=" ++ (if new then "true" else "false"))
  | loadOnly => do
    let some own := n.name? | return none
    let _ ← Script.load own
    return none
  | block => do
    let f := ctx.format
    return some (n.describe ++ " " ++ f.block (f.lines (← Script.texts n.probed)))

def transform (p : Probe) (name : String) : Transform := { name, script := p.script }

end Probe

end Scribe
