import Scribe.Render.Factory

/-!
Rendering. A generator dispatches each node through its factories: the candidates for the node's
kind are tried in order, and what they do to the dependencies stays done whether or not they give
text. The depth limit bounds the nodes on the stack, so it is the measure of the recursion.
-/
namespace Scribe

structure Provenance where
  node : Node
  text : String
  candidate : Candidate
  /-- The nodes around the node, outermost first. -/
  ancestors : List Node

namespace Provenance

def rendered (p : Provenance) : Rendered :=
  { node := p.node, text := p.text, transform := p.candidate.transform.name
    factory := p.candidate.factory.name, ancestors := p.ancestors }

end Provenance

/-- How the nodes that a script asks for are rendered. -/
structure Children where
  first : Node → Dependencies → Option Rendered × Dependencies
  every : Node → Dependencies → List Rendered × Dependencies

namespace Children

/-- Beyond the depth limit nothing is rendered. -/
def none : Children := ⟨fun _ d => (.none, d), fun _ d => ([], d)⟩

end Children

namespace Script

def run (c : Children) : Script α → Dependencies → α × Dependencies
  | done a, d => (a, d)
  | getDeps next, d => (next d).run c d
  | putDeps d next, _ => next.run c d
  | first n next, d =>
    let (r, d) := c.first n d
    (next r).run c d
  | every n next, d =>
    let (rs, d) := c.every n d
    (next rs).run c d

theorem run_bind (c : Children) (s : Script α) (f : α → Script β) (d : Dependencies) :
    (s.bind f).run c d = (f (s.run c d).1).run c (s.run c d).2 := by
  induction s generalizing d with
  | done a => rfl
  | getDeps next ih => exact ih d d
  | putDeps d' next ih => exact ih d'
  | first n next ih => exact ih _ _
  | every n next ih => exact ih _ _

end Script

/-- The first candidate that gives text when tried after those before it. -/
def firstText (attempt : Candidate → Dependencies → Option String × Dependencies) :
    List Candidate → Dependencies → Option (Candidate × String) × Dependencies
  | [], d => (none, d)
  | c :: cs, d =>
    match attempt c d with
    | (some text, d) => (some (c, text), d)
    | (none, d) => firstText attempt cs d

/-- All candidates that give text, each tried after those before it. -/
def everyText (attempt : Candidate → Dependencies → Option String × Dependencies) :
    List Candidate → Dependencies → List (Candidate × String) × Dependencies
  | [], d => ([], d)
  | c :: cs, d =>
    let (text, d) := attempt c d
    let (rest, d) := everyText attempt cs d
    (match text with
      | some text => (c, text) :: rest
      | none => rest, d)

structure Dispatcher where
  table : DispatchTable
  format : Format

namespace Dispatcher

variable (s : Dispatcher)

def attempt (stack : Stack) (inner : Stack → Children) (n : Node) (c : Candidate)
    (d : Dependencies) : Option String × Dependencies :=
  (c.transform.script ⟨s.format, stack.push n⟩ n).run (inner (stack.push n)) d

def dispatch (stack : Stack) (inner : Stack → Children) (n : Node) (d : Dependencies) :
    Option Provenance × Dependencies :=
  match firstText (s.attempt stack inner n) (s.table.candidates n.kind) d with
  | (some (c, text), d) => (some ⟨n, text, c, stack.chain⟩, d)
  | (none, d) => (none, d)

def dispatchAll (stack : Stack) (inner : Stack → Children) (n : Node) (d : Dependencies) :
    List Provenance × Dependencies :=
  let (found, d) := everyText (s.attempt stack inner n) (s.table.candidates n.kind) d
  (found.map fun (c, text) => ⟨n, text, c, stack.chain⟩, d)

/-- How nodes are rendered where `remaining` more may be put on the stack. -/
def children : (remaining : Nat) → Stack → Children
  | 0, _ => .none
  | remaining + 1, stack =>
    { first := fun n d =>
        let (p, d) := s.dispatch stack (children remaining) n d
        (p.map (·.rendered), d)
      every := fun n d =>
        let (ps, d) := s.dispatchAll stack (children remaining) n d
        (ps.map (·.rendered), d) }

end Dispatcher

/-- One rendering session: the factories, the names used so far, and the layout. -/
structure Generator where
  factories : List Factory
  table : DispatchTable
  dependencies : Dependencies
  format : Format
  maxDepth : Nat

namespace Generator

def defaultMaxDepth : Nat := 256

/-- A generator over one factory, with a copy of the current format. -/
def new (f : Factory) (d : Dependencies) : StateM Format Generator := do
  return { factories := [f], table := .build [f], dependencies := d, format := ← Format.current
           maxDepth := defaultMaxDepth }

def withFactory (g : Generator) (f : Factory) : Generator :=
  { g with factories := g.factories ++ [f], table := .build (g.factories ++ [f]) }

def withFormat (g : Generator) (f : Format) : Generator := { g with format := f }

def withMaxDepth (g : Generator) (n : Nat) : Generator := { g with maxDepth := n }

def withDependencies (g : Generator) (d : Dependencies) : Generator := { g with dependencies := d }

/-- The same factories and layout, with nothing used yet. -/
def fresh (g : Generator) : Generator := { g with dependencies := g.dependencies.fresh }

def dispatcher (g : Generator) : Dispatcher := ⟨g.table, g.format⟩

def renderWithProvenance (g : Generator) (n : Node) : Option Provenance × Generator :=
  match g.maxDepth with
  | 0 => (none, g)
  | remaining + 1 =>
    let (p, d) := g.dispatcher.dispatch {} (g.dispatcher.children remaining) n g.dependencies
    (p, g.withDependencies d)

def renderAll (g : Generator) (n : Node) : List Provenance × Generator :=
  match g.maxDepth with
  | 0 => ([], g)
  | remaining + 1 =>
    let (ps, d) := g.dispatcher.dispatchAll {} (g.dispatcher.children remaining) n g.dependencies
    (ps, g.withDependencies d)

def render (g : Generator) (n : Node) : Option String × Generator :=
  let (r, d) := (g.dispatcher.children g.maxDepth {}).first n g.dependencies
  (r.map (·.text), g.withDependencies d)

end Generator

/-- Nodes yet to be rendered, one text at a time. -/
structure Rendering where
  generator : Generator
  pending : List Node

namespace Rendering

def nextOf (g : Generator) : List Node → Option String × Rendering
  | [] => (none, ⟨g, []⟩)
  | n :: ns =>
    match g.render n with
    | (some text, g) => (some text, ⟨g, ns⟩)
    | (none, g) => nextOf g ns

/-- The next text; nodes that give none are passed over. -/
def next (r : Rendering) : Option String × Rendering := nextOf r.generator r.pending

/-- At most `count` texts. Nodes after the last of them are left pending. -/
def take : Nat → Rendering → List String × Rendering
  | 0, r => ([], r)
  | count + 1, r =>
    match r.next with
    | (none, r) => ([], r)
    | (some text, r) =>
      let (texts, r) := take count r
      (text :: texts, r)

end Rendering

namespace Generator

def renderEach (g : Generator) (ns : List Node) : Rendering := ⟨g, ns⟩

end Generator

end Scribe
