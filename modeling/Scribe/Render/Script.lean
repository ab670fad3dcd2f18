import Scribe.Format
import Scribe.Render.Dependencies
import Scribe.Render.Stack

/-!
Scripts: what a transform does, as data. A script reads and replaces the dependencies and asks for
children to be rendered; how they are rendered is left to whoever runs it, so one script can be run,
bounded and observed in different ways.
-/
namespace Scribe

structure Rendered where
  node : Node
  text : String
  transform : String
  factory : String
  /-- The nodes around the child, outermost first. -/
  ancestors : List Node

inductive Script (α : Type) where
  | done (a : α)
  | getDeps (next : Dependencies → Script α)
  | putDeps (d : Dependencies) (next : Script α)
  /-- Renders a node with the first transform that gives text. -/
  | first (n : Node) (next : Option Rendered → Script α)
  /-- Renders a node with every transform. -/
  | every (n : Node) (next : List Rendered → Script α)

namespace Script

def bind : Script α → (α → Script β) → Script β
  | done a, f => f a
  | getDeps next, f => getDeps fun d => (next d).bind f
  | putDeps d next, f => putDeps d (next.bind f)
  | first n next, f => first n fun r => (next r).bind f
  | every n next, f => every n fun rs => (next rs).bind f

instance : Monad Script where
  pure := done
  bind := bind

theorem bind_done (s : Script α) : s.bind done = s := by
  induction s with
  | done a => rfl
  | getDeps next ih => simp [bind, ih]
  | putDeps d next ih => simp [bind, ih]
  | first n next ih => simp [bind, ih]
  | every n next ih => simp [bind, ih]

theorem bind_assoc (s : Script α) (f : α → Script β) (g : β → Script γ) :
    (s.bind f).bind g = s.bind fun a => (f a).bind g := by
  induction s with
  | done a => rfl
  | getDeps next ih => simp [bind, ih]
  | putDeps d next ih => simp [bind, ih]
  | first n next ih => simp [bind, ih]
  | every n next ih => simp [bind, ih]

instance : LawfulMonad Script :=
  LawfulMonad.mk' Script bind_done (fun _ _ => rfl) bind_assoc

def dependencies : Script Dependencies := getDeps done

def update (f : Dependencies → α × Dependencies) : Script α :=
  getDeps fun d => putDeps (f d).2 (done (f d).1)

def load (name : String) : Script Bool := update (·.load name)

def reserve (name : String) : Script Unit := update fun d => ((), d.reserve name)

def setPackage (package : String) : Script Bool := update (·.setPackage package)

def unsetPackage (package : String) : Script Bool := update (·.unsetPackage package)

def text? (n : Node) : Script (Option String) := first n fun r => done (r.map (·.text))

/-- The texts of nodes in turn, leaving out those that give none. -/
def texts : List Node → Script (List String)
  | [] => done []
  | n :: ns => first n fun r => (texts ns).bind fun rest =>
    done (match r with
      | some r => r.text :: rest
      | none => rest)

end Script

/-- What a transform can see: the layout, and the nodes from the root to its own. -/
structure Context where
  format : Format
  stack : Stack

/-- A way to render some nodes; no text means that there is nothing to render. -/
structure Transform where
  name : String
  script : Context → Node → Script (Option String)
  /-- Whether a run on a node breaks off, for it makes a text longer than texts can be. -/
  overflows : Node → Bool := fun _ => false

end Scribe
