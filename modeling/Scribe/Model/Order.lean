import Scribe.Model.TypeRef
import Scribe.Model.Modifier

/-!
The order of references to types, arguments, generics and modifiers: field by field, names by code
point, and no name before any name.
-/
namespace Scribe

def compareNames (a b : String) : Ordering :=
  if a < b then .lt else if a = b then .eq else .gt

def compareOptions : Option String → Option String → Ordering
  | none, none => .eq
  | none, some _ => .lt
  | some _, none => .gt
  | some a, some b => compareNames a b

def BoundKind.compare : BoundKind → BoundKind → Ordering
  | .upper, .lower => .lt
  | .lower, .upper => .gt
  | _, _ => .eq

def Modifier.compare (a b : Modifier) : Ordering := Ord.compare a.rank b.rank

mutual

def TypeRef.compare : TypeRef → TypeRef → Ordering
  | ⟨a, as, m⟩, ⟨b, bs, n⟩ =>
    (compareNames a b).then ((compareArguments as bs).then (Ord.compare m n))

def TypeArgument.compare : TypeArgument → TypeArgument → Ordering
  | .type a, .type b => a.compare b
  | .type _, .wildcard _ => .lt
  | .wildcard _, .type _ => .gt
  | .wildcard a, .wildcard b => a.compare b

def Generic.compare : Generic → Generic → Ordering
  | ⟨a, as, k⟩, ⟨b, bs, l⟩ => (compareOptions a b).then ((compareTypes as bs).then (k.compare l))

def compareArguments : List TypeArgument → List TypeArgument → Ordering
  | [], [] => .eq
  | [], _ :: _ => .lt
  | _ :: _, [] => .gt
  | a :: as, b :: bs => (a.compare b).then (compareArguments as bs)

def compareTypes : List TypeRef → List TypeRef → Ordering
  | [], [] => .eq
  | [], _ :: _ => .lt
  | _ :: _, [] => .gt
  | a :: as, b :: bs => (a.compare b).then (compareTypes as bs)

end

def insertDistinct (compare : α → α → Ordering) (a : α) : List α → List α
  | [] => [a]
  | b :: bs =>
    match compare a b with
    | .lt => a :: b :: bs
    | .eq => b :: bs
    | .gt => b :: insertDistinct compare a bs

def sortDistinct (compare : α → α → Ordering) (as : List α) : List α :=
  as.foldl (fun sorted a => insertDistinct compare a sorted) []

end Scribe
