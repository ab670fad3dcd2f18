import Scribe.Render.Script

/-!
Which modifiers are written. A modifier that the declaration directly around a node implies is left
out; nothing further out on the stack counts.
-/
namespace Scribe.Java

/-- The modifiers implied for a node of kind `inner` directly inside one of kind `outer`. -/
def impliedModifiers (outer inner : Kind) : List Modifier :=
  let nested := inner.family == some .typeDecl
  match outer, inner with
  | .interfaceDecl, .method => [.publicAccess, .abstract]
  | .interfaceDecl, .field => [.publicAccess, .static, .final]
  | .annotationDecl, .field | .annotationDecl, .method => [.publicAccess, .abstract]
  | .enumDecl, .constructor => [.privateAccess]
  | outer, inner =>
    if outer == .interfaceDecl && nested then [.publicAccess, .static]
    else if outer.family == some .typeDecl && nested && inner != .classDecl then [.static]
    else []

def implicitModifiers (s : Stack) : List Modifier :=
  match s.top?, s.parent? with
  | some n, some p => impliedModifiers p.kind n.kind
  | _, _ => []

def modifierWords (s : Stack) (ms : Modifiers) : String :=
  String.join ((ms.toList.filter (!(implicitModifiers s).contains ·)).map (·.keyword ++ " "))

end Scribe.Java
