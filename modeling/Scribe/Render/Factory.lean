import Scribe.Render.Script

/-!
Factories hold the transforms of one target language, registered for kinds, families, capabilities
or any node, and resolve a kind to the transforms to try for it.
-/
namespace Scribe

inductive Key where
  | kind (k : Kind)
  | family (f : Family)
  | capability (c : Capability)
  | any
deriving DecidableEq, Repr

namespace Key

/-- The next more general keys: the family, then the capabilities in the order of the kind. -/
def parents : Key → List Key
  | kind k => (k.family.map family).toList ++ k.capabilities.map capability
  | family _ | capability _ => [any]
  | any => []

def height : Key → Nat
  | kind _ => 2
  | family _ | capability _ => 1
  | any => 0

/-- The keys of a level that have not been seen, each once, then those of the levels above. -/
def climb : Nat → List Key → List Key → List Key
  | 0, _, _ => []
  | levels + 1, seen, level =>
    let new := (level.filter (!seen.contains ·)).eraseDups
    new ++ climb levels (seen ++ new) (new.flatMap parents)

def ancestors (k : Key) : List Key := climb k.height [k] k.parents

end Key

/-- The transforms of one target language. -/
structure Factory where
  name : String
  /-- The transforms of the keys that have an entry, in the order in which they are tried. -/
  entries : Key → Option (List Transform) := fun _ => none

namespace Factory

def transformsFor (f : Factory) (k : Key) : List Transform := (f.entries k).getD []

def replace (f : Factory) (k : Key) (entry : Option (List Transform)) : Factory :=
  { f with entries := fun k' => if k' = k then entry else f.entries k' }

def install (f : Factory) (k : Key) (t : Transform) : Factory :=
  f.replace k (some (f.transformsFor k ++ [t]))

/-- Makes a transform the only one of its key. -/
def set (f : Factory) (k : Key) (t : Transform) : Factory := f.replace k (some [t])

def remove (f : Factory) (k : Key) : Bool × Factory := ((f.entries k).isSome, f.replace k none)

@[simp] theorem entries_replace_self (f : Factory) (k : Key) (entry : Option (List Transform)) :
    (f.replace k entry).entries k = entry := if_pos rfl

theorem entries_replace_of_ne {f : Factory} {k k' : Key} {entry : Option (List Transform)}
    (h : k' ≠ k) : (f.replace k entry).entries k' = f.entries k' := if_neg h

/-- The transforms to try for a kind: those registered for it, or else those of its ancestors. -/
def resolve (f : Factory) (k : Kind) : List Transform :=
  match f.transformsFor (.kind k) with
  | [] => (Key.kind k).ancestors.flatMap f.transformsFor
  | ts => ts

end Factory

structure Candidate where
  factory : Factory
  transform : Transform

/-- The candidates for a kind, best first: each factory in turn gives those it resolves. -/
def resolve (factories : List Factory) (k : Kind) : List Candidate :=
  factories.flatMap fun f => (f.resolve k).map (⟨f, ·⟩)

structure DispatchTable where
  slots : Array (List Candidate)

namespace DispatchTable

def build (factories : List Factory) : DispatchTable :=
  ⟨(Kind.all.map (Scribe.resolve factories)).toArray⟩

def candidates (t : DispatchTable) (k : Kind) : List Candidate := t.slots[k.index]?.getD []

end DispatchTable

end Scribe
