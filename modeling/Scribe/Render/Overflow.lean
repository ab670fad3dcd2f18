import Scribe.Render.Generator

/-!
Renderings that break off. A text has no more than so many bytes, and a transform that needs a
longer one takes the whole rendering down. Whether that happens is told in the order of the
rendering, and no further than to the first transform that overflows, so that no text is made that
is too long.
-/
namespace Scribe

/-- Whether a run of a script breaks off, given for which of its children the rendering does. -/
def Script.overflows (c : Children) (below : Bool → Node → Dependencies → Bool) :
    Script α → Dependencies → Bool
  | done _, _ => false
  | getDeps next, d => (next d).overflows c below d
  | putDeps d next, _ => next.overflows c below d
  | first n next, d =>
    below false n d || (next (c.first n d).1).overflows c below (c.first n d).2
  | every n next, d =>
    below true n d || (next (c.every n d).1).overflows c below (c.every n d).2

def anyOverflows (attempt : Candidate → Dependencies → Option String × Dependencies)
    (overflows : Candidate → Dependencies → Bool) (all : Bool) :
    List Candidate → Dependencies → Bool
  | [], _ => false
  | c :: cs, d =>
    overflows c d ||
      (if (attempt c d).1.isSome && !all then false
        else anyOverflows attempt overflows all cs (attempt c d).2)

namespace Dispatcher

variable (s : Dispatcher)

/-- Whether rendering a node breaks off, by its first text or by all of them. -/
def overflows : (remaining : Nat) → Stack → (all : Bool) → Node → Dependencies → Bool
  | 0, _, _, _, _ => false
  | remaining + 1, stack, all, n, d =>
    anyOverflows (s.attempt stack (s.children remaining) n)
      (fun c d => c.transform.overflows n ||
        (c.transform.script ⟨s.format, stack.push n⟩ n).overflows
          (s.children remaining (stack.push n)) (overflows remaining (stack.push n)) d)
      all (s.table.candidates n.kind) d

end Dispatcher

/-- Whether rendering a node as the root breaks off. -/
def Generator.overflows (g : Generator) (n : Node) : Bool :=
  g.dispatcher.overflows g.maxDepth {} false n g.dependencies

end Scribe
