import Scribe.Proofs.Render.Trace

/-!
Bindings: factories with at most one transform for each kind. Where a binding is the only factory,
rendering a node is running one script, and the trace of a node is the run of that script followed
by the traces of the children it asks for.
-/
namespace Scribe

structure Binding where
  factory : Factory
  transform? : Kind → Option Transform
  resolve_factory : ∀ k, factory.resolve k = (transform? k).toList

namespace Binding

def dispatcher (b : Binding) (f : Format) : Dispatcher := ⟨.build [b.factory], f⟩

def session (b : Binding) (d : Dependencies) (f : Format) (maxDepth : Nat) : Generator where
  factories := [b.factory]
  table := .build [b.factory]
  dependencies := d
  format := f
  maxDepth := maxDepth

theorem candidates_dispatcher (b : Binding) (f : Format) (k : Kind) :
    (b.dispatcher f).table.candidates k = ((b.transform? k).map (⟨b.factory, ·⟩)).toList := by
  have hslot : (Kind.all.map (resolve [b.factory])).toArray[k.index]? =
      some (resolve [b.factory] k) := by
    simp [Kind.getElem?_all_index]
  simp only [dispatcher, DispatchTable.candidates, DispatchTable.build, hslot, Option.getD_some,
    resolve, List.flatMap_singleton, b.resolve_factory]
  cases b.transform? k <;> rfl

def script (b : Binding) (ctx : Context) (n : Node) : Script (Option String) :=
  match b.transform? n.kind with
  | some t => t.script ctx n
  | none => pure none

variable (b : Binding) (f : Format) (remaining : Nat) (stack : Stack) (n : Node) (d : Dependencies)

abbrev below : Children := (b.dispatcher f).children remaining (stack.push n)

def rendered (text : String) : Rendered where
  node := n
  text := text
  transform := ((b.transform? n.kind).map (·.name)).getD ""
  factory := b.factory.name
  ancestors := stack.chain

theorem first_succ :
    ((b.dispatcher f).children (remaining + 1) stack).first n d =
      let run := (b.script ⟨f, stack.push n⟩ n).run (b.below f remaining stack n) d
      (run.1.map (b.rendered stack n), run.2) := by
  simp only [Dispatcher.children, Dispatcher.dispatch, candidates_dispatcher, script]
  cases ht : b.transform? n.kind with
  | none => rfl
  | some t =>
    simp only [Option.map_some, Option.toList_some, firstText]
    generalize hrun : (b.dispatcher f).attempt stack _ n ⟨b.factory, t⟩ d = run
    obtain ⟨text, e⟩ := run
    simp only [Dispatcher.attempt] at hrun
    rw [show (t.script ⟨f, stack.push n⟩ n).run (b.below f remaining stack n) d = (text, e)
      from hrun]
    cases text with
    | none => rfl
    | some text =>
      refine Prod.ext (congrArg some ?_) rfl
      simp only [rendered, ht, Option.map_some, Option.getD_some]
      rfl

theorem dispatchAll_snd :
    ((b.dispatcher f).dispatchAll stack ((b.dispatcher f).children remaining) n d).2 =
      (((b.dispatcher f).children (remaining + 1) stack).first n d).2 := by
  rw [first_succ]
  simp only [Dispatcher.dispatchAll, candidates_dispatcher, script]
  cases b.transform? n.kind <;> rfl

theorem text_first :
    (((b.dispatcher f).children (remaining + 1) stack).first n d).1.map (·.text) =
      ((b.script ⟨f, stack.push n⟩ n).run (b.below f remaining stack n) d).1 := by
  rw [first_succ]
  simp only [Option.map_map]
  exact Option.map_id'

theorem dependencies_first :
    (((b.dispatcher f).children (remaining + 1) stack).first n d).2 =
      ((b.script ⟨f, stack.push n⟩ n).run (b.below f remaining stack n) d).2 := by
  rw [first_succ]

def ownVisit (t : Transform) : Visit where
  candidate := ⟨b.factory, t⟩
  node := n
  stack := stack
  before := d
  asks := (b.script ⟨f, stack.push n⟩ n).asks (b.below f remaining stack n) d
  text := ((b.script ⟨f, stack.push n⟩ n).run (b.below f remaining stack n) d).1
  after := ((b.script ⟨f, stack.push n⟩ n).run (b.below f remaining stack n) d).2

theorem visits_of_transform {t : Transform} (h : b.transform? n.kind = some t) (all : Bool) :
    (b.dispatcher f).visits (remaining + 1) stack all n d =
      b.ownVisit f remaining stack n d t
      :: (b.ownVisit f remaining stack n d t).asks.flatMap fun a =>
          (b.dispatcher f).visits remaining (stack.push n) a.all a.node a.before := by
  have htried : tried ((b.dispatcher f).attempt stack ((b.dispatcher f).children remaining) n) all
      ((b.dispatcher f).table.candidates n.kind) d = [(⟨b.factory, t⟩, d)] := by
    simp [candidates_dispatcher, h, tried]
  simp only [Dispatcher.visits, htried, List.flatMap_singleton, Dispatcher.attempt, ownVisit,
    script, h]
  rfl

theorem visits_of_none (h : b.transform? n.kind = none) (all : Bool) :
    (b.dispatcher f).visits (remaining + 1) stack all n d = [] := by
  simp [Dispatcher.visits, candidates_dispatcher, h, tried]

/-- Visits are those of a node itself and those of the children that its script asks for. -/
theorem mem_visits_succ {b : Binding} {f : Format} {remaining : Nat} {stack : Stack} {n : Node}
    {d : Dependencies} {all : Bool} {v : Visit} :
    v ∈ (b.dispatcher f).visits (remaining + 1) stack all n d ↔
      (∃ t, b.transform? n.kind = some t ∧ v = b.ownVisit f remaining stack n d t)
        ∨ ∃ a ∈ (b.script ⟨f, stack.push n⟩ n).asks (b.below f remaining stack n) d,
          v ∈ (b.dispatcher f).visits remaining (stack.push n) a.all a.node a.before := by
  cases ht : b.transform? n.kind with
  | none =>
    rw [b.visits_of_none f remaining stack n d ht, script, ht]
    simp
  | some t =>
    rw [b.visits_of_transform f remaining stack n d ht, List.mem_cons, List.mem_flatMap]
    simp [ownVisit]

theorem exists_ownVisit {b : Binding} {f : Format} {remaining : Nat} {stack : Stack} {n : Node}
    {d : Dependencies} {all : Bool} {v : Visit}
    (hv : v ∈ (b.dispatcher f).visits remaining stack all n d) :
    ∃ remaining stack n d t, b.transform? n.kind = some t
      ∧ v = b.ownVisit f remaining stack n d t := by
  induction remaining generalizing stack all n d with
  | zero => exact nomatch hv
  | succ remaining ih =>
    rcases mem_visits_succ.1 hv with ⟨t, ht, rfl⟩ | ⟨a, -, hv⟩
    · exact ⟨remaining, stack, n, d, t, ht, rfl⟩
    · exact ih hv

theorem render_session (maxDepth : Nat) :
    (b.session d f maxDepth).render n =
      ((((b.dispatcher f).children maxDepth {}).first n d).1.map (·.text),
        b.session (((b.dispatcher f).children maxDepth {}).first n d).2 f maxDepth) := rfl

theorem renderWithProvenance_session (maxDepth : Nat) :
    ((b.session d f maxDepth).renderWithProvenance n).2 =
      ((b.session d f maxDepth).render n).2 := by
  cases maxDepth <;> rfl

theorem renderAll_session (maxDepth : Nat) :
    ((b.session d f maxDepth).renderAll n).2 = ((b.session d f maxDepth).render n).2 := by
  cases maxDepth with
  | zero => rfl
  | succ remaining =>
    have hsnd := b.dispatchAll_snd f remaining {} n d
    exact congrArg (b.session · f (remaining + 1)) hsnd

end Binding

end Scribe
