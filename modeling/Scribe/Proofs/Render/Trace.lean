import Scribe.Render.Generator

/-!
What happens while a node is rendered, as a list: every run of a transform, in the order in which
the runs begin, with the dependencies it met and left. The list is read off the same scripts that
are run, so it adds nothing to the rendering.
-/
namespace Scribe

/-- A child that a script asks for, and the texts it is given for it. -/
structure Ask where
  node : Node
  /-- Whether every transform is wanted, or only the first that gives text. -/
  all : Bool
  before : Dependencies
  texts : List String

namespace Script

/-- The children that a script asks for when it is run, in order. -/
def asks (c : Children) : Script α → Dependencies → List Ask
  | done _, _ => []
  | getDeps next, d => (next d).asks c d
  | putDeps d next, _ => next.asks c d
  | first n next, d =>
    ⟨n, false, d, ((c.first n d).1.map (·.text)).toList⟩
      :: (next (c.first n d).1).asks c (c.first n d).2
  | every n next, d =>
    ⟨n, true, d, (c.every n d).1.map (·.text)⟩
      :: (next (c.every n d).1).asks c (c.every n d).2

theorem asks_bind (c : Children) (s : Script α) (f : α → Script β) (d : Dependencies) :
    (s.bind f).asks c d = s.asks c d ++ (f (s.run c d).1).asks c (s.run c d).2 := by
  induction s generalizing d with
  | done a => rfl
  | getDeps next ih => exact ih d d
  | putDeps d' next ih => exact ih d'
  | first n next ih => simp only [bind, asks, run, ih, List.cons_append]
  | every n next ih => simp only [bind, asks, run, ih, List.cons_append]

@[simp] theorem run_pure (c : Children) (a : α) (d : Dependencies) :
    (pure a : Script α).run c d = (a, d) := rfl

@[simp] theorem asks_pure (c : Children) (a : α) (d : Dependencies) :
    (pure a : Script α).asks c d = [] := rfl

/-- The laws of `run_bind` and `asks_bind`, for scripts written with `do`. -/
theorem run_monadBind (c : Children) (s : Script α) (f : α → Script β) (d : Dependencies) :
    (s >>= f).run c d = (f (s.run c d).1).run c (s.run c d).2 := run_bind c s f d

theorem asks_monadBind (c : Children) (s : Script α) (f : α → Script β) (d : Dependencies) :
    (s >>= f).asks c d = s.asks c d ++ (f (s.run c d).1).asks c (s.run c d).2 :=
  asks_bind c s f d

theorem run_dependencies_bind (c : Children) (f : Dependencies → Script α) (d : Dependencies) :
    (dependencies >>= f).run c d = (f d).run c d := rfl

theorem asks_dependencies_bind (c : Children) (f : Dependencies → Script α) (d : Dependencies) :
    (dependencies >>= f).asks c d = (f d).asks c d := rfl

theorem run_ite (c : Children) (p : Prop) [Decidable p] (s t : Script α) (d : Dependencies) :
    (if p then s else t).run c d = if p then s.run c d else t.run c d := by
  split <;> rfl

theorem asks_ite (c : Children) (p : Prop) [Decidable p] (s t : Script α) (d : Dependencies) :
    (if p then s else t).asks c d = if p then s.asks c d else t.asks c d := by
  split <;> rfl

theorem run_text? (c : Children) (n : Node) (d : Dependencies) :
    (text? n).run c d = ((c.first n d).1.map (·.text), (c.first n d).2) := rfl

theorem texts_cons (n : Node) (ns : List Node) :
    texts (n :: ns) = do
      let text ← text? n
      let rest ← texts ns
      return text.toList ++ rest := by
  change Script.first n _ = Script.first n _
  congr 1
  funext r
  cases r <;> rfl

theorem run_texts (c : Children) (ns : List Node) (d : Dependencies) :
    ((texts ns).run c d).1 = ((texts ns).asks c d).flatMap (·.texts) := by
  induction ns generalizing d with
  | nil => rfl
  | cons n ns ih =>
    simp only [texts, run, asks, run_bind, asks_bind, List.append_nil, List.flatMap_cons]
    rw [ih]
    cases (c.first n d).1 <;> rfl

/-- Children that leave the dependencies alone do not depend on one another. -/
theorem run_texts_of_fixed {c : Children} {ns : List Node} {d : Dependencies}
    (h : ∀ n ∈ ns, (c.first n d).2 = d) :
    (texts ns).run c d = (ns.filterMap fun n => (c.first n d).1.map (·.text), d) := by
  induction ns with
  | nil => rfl
  | cons n ns ih =>
    simp only [texts, run, run_bind, h n (by simp), ih fun m hm => h m (by simp [hm])]
    cases hn : (c.first n d).1 <;> simp [hn]

end Script

structure Visit where
  candidate : Candidate
  node : Node
  /-- The nodes around the node. -/
  stack : Stack
  before : Dependencies
  asks : List Ask
  text : Option String
  after : Dependencies

/-- The candidates that are tried in turn, each with the dependencies it meets. -/
def tried (attempt : Candidate → Dependencies → Option String × Dependencies) (all : Bool) :
    List Candidate → Dependencies → List (Candidate × Dependencies)
  | [], _ => []
  | c :: cs, d =>
    (c, d) :: if (attempt c d).1.isSome && !all then [] else tried attempt all cs (attempt c d).2

namespace Dispatcher

variable (s : Dispatcher)

/-- The runs of transforms on a node and on all that is rendered for it. -/
def visits : (remaining : Nat) → Stack → (all : Bool) → Node → Dependencies → List Visit
  | 0, _, _, _, _ => []
  | remaining + 1, stack, all, n, d =>
    (tried (s.attempt stack (s.children remaining) n) all (s.table.candidates n.kind) d).flatMap
      fun (c, d) =>
        let asks := (c.transform.script ⟨s.format, stack.push n⟩ n).asks
          (s.children remaining (stack.push n)) d
        let (text, after) := s.attempt stack (s.children remaining) n c d
        ⟨c, n, stack, d, asks, text, after⟩
          :: asks.flatMap fun a => visits remaining (stack.push n) a.all a.node a.before

end Dispatcher

namespace Generator

def visits (g : Generator) (n : Node) : List Visit :=
  g.dispatcher.visits g.maxDepth {} false n g.dependencies

end Generator

end Scribe
