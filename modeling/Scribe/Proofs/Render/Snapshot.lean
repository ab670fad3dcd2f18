import Scribe.Markup.Binding
import Scribe.Proofs.Render.Dispatch
import Scribe.Proofs.Render.Each
import Mathlib.Data.List.Induction

/-!
Generators side by side. The current format is shared by all that are made, but each copies it only
once: what a generator writes is laid out in the format that was current when the first generator on
the way to it was constructed, unless it was given another one on that way. Nothing that is done
to the current format afterwards changes that.
-/
namespace Scribe

/-- The generators in the order in which they were made, and the format that is current. -/
structure Workshop where
  current : Format := .standard
  generators : List Generator := []

inductive Request where
  | text (n : Node)
  | provenance (n : Node)
  | all (n : Node)
  /-- One by one, no more than so many texts. -/
  | each (ns : List Node) (count : Nat)

def Request.run (g : Generator) : Request → List String × Generator
  | text n =>
    let (t, g) := g.render n
    (t.toList, g)
  | provenance n =>
    let (p, g) := g.renderWithProvenance n
    (p.toList.map (·.text), g)
  | all n =>
    let (ps, g) := g.renderAll n
    (ps.map (·.text), g)
  | each ns count =>
    let (ts, r) := (g.renderEach ns).take count
    (ts, r.generator)

inductive Event where
  | setCurrent (f : Format)
  | construct (factory : Factory) (d : Dependencies)
  /-- Makes a generator from a copy of the one that has the number. -/
  | derive (number : Nat) (step : Generator.Step)
  | render (number : Nat) (request : Request)

inductive Answer where
  /-- The format that is not current any more. -/
  | replaced (f : Format)
  | texts (ts : List String)
  | nothing
deriving DecidableEq

namespace Workshop

def answer (w : Workshop) : Event → Answer × Workshop
  | .setCurrent f =>
    let (old, current) := (Format.setCurrent f).run w.current
    (.replaced old, { w with current })
  | .construct factory d =>
    let (g, current) := (Generator.new factory d).run w.current
    (.nothing, { current, generators := w.generators ++ [g] })
  | .derive number step =>
    match w.generators[number]? with
    | some g => (.nothing, { w with generators := w.generators ++ [step.apply g] })
    | none => (.nothing, w)
  | .render number request =>
    match w.generators[number]? with
    | some g =>
      let (ts, g) := request.run g
      (.texts ts, { w with generators := w.generators.set number g })
    | none => (.nothing, w)

def after (history : List Event) : Workshop := history.foldl (fun w e => (w.answer e).2) {}

end Workshop

open Workshop (after)

/-! What the history says. -/

def Event.set? : Event → Option Format
  | setCurrent f => some f
  | construct .. | derive .. | render .. => none

def lastSet (history : List Event) : Format :=
  ((history.filterMap Event.set?).getLast?).getD .standard

def Generator.Step.given? : Step → Option Format
  | withFormat f => some f
  | withFactory _ | withMaxDepth _ | fresh => none

def lastGiven? (path : List Generator.Step) : Option Format :=
  (path.filterMap Generator.Step.given?).getLast?

/-- The generator with a number goes back to a root, constructed after some events, by a path of
steps. -/
inductive Descends : (history : List Event) → (number : Nat) → (root : List Event) →
    (path : List Generator.Step) → Prop
  | root (history : List Event) (factory : Factory) (d : Dependencies) :
    Descends (history ++ [.construct factory d]) (after history).generators.length history []
  | step {history root : List Event} {number : Nat} {path : List Generator.Step}
    (h : Descends history number root path) (step : Generator.Step) :
    Descends (history ++ [.derive number step]) (after history).generators.length root
      (path ++ [step])
  | later {history root : List Event} {number : Nat} {path : List Generator.Step}
    (h : Descends history number root path) (event : Event) :
    Descends (history ++ [event]) number root path

variable {history root : List Event} {number : Nat} {path : List Generator.Step}
  {w : Workshop} {g : Generator}

/-! One event. -/

namespace Rendering

theorem format_nextOf (g : Generator) (ns : List Node) :
    (nextOf g ns).2.generator.format = g.format := by
  induction ns generalizing g with
  | nil => rfl
  | cons n ns ih =>
    rw [nextOf_cons]
    split
    · rfl
    · exact ih _

theorem format_take (r : Rendering) (count : Nat) :
    (r.take count).2.generator.format = r.generator.format := by
  induction count generalizing r with
  | zero => rfl
  | succ count ih =>
    have hnext : r.next.2.generator.format = r.generator.format := format_nextOf _ _
    rw [take_succ]
    split
    · next heq => rwa [heq] at hnext
    · next heq =>
      rw [heq] at hnext
      exact (ih _).trans hnext

end Rendering

theorem Request.format_run (g : Generator) (r : Request) : (r.run g).2.format = g.format := by
  cases r with
  | text n => rfl
  | provenance n =>
    change (g.renderWithProvenance n).2.format = g.format
    rw [Generator.renderWithProvenance]
    split <;> rfl
  | all n =>
    change (g.renderAll n).2.format = g.format
    rw [Generator.renderAll]
    split <;> rfl
  | each ns count => exact Rendering.format_take _ count

theorem Generator.Step.format_apply (g : Generator) (s : Step) :
    (s.apply g).format = s.given?.getD g.format := by
  cases s <;> rfl

namespace Workshop

theorem after_concat (history : List Event) (event : Event) :
    after (history ++ [event]) = ((after history).answer event).2 := by
  rw [after, List.foldl_append]
  rfl

theorem current_answer (w : Workshop) (event : Event) :
    (w.answer event).2.current = event.set?.getD w.current := by
  cases event with
  | setCurrent | construct => rfl
  | derive number step => cases hg : w.generators[number]? <;> simp [answer, hg, Event.set?]
  | render number request => cases hg : w.generators[number]? <;> simp [answer, hg, Event.set?]

theorem exists_answer (h : w.generators[number]? = some g) (event : Event) :
    ∃ g', (w.answer event).2.generators[number]? = some g' ∧ g'.format = g.format := by
  have happend (g' : Generator) : (w.generators ++ [g'])[number]? = some g := by
    obtain ⟨hlt, -⟩ := List.getElem?_eq_some_iff.1 h
    rw [List.getElem?_append_left hlt, h]
  cases event with
  | setCurrent f => exact ⟨g, h, rfl⟩
  | construct factory d => exact ⟨g, happend _, rfl⟩
  | derive number' step =>
    cases hg : w.generators[number']? with
    | none => exact ⟨g, by simpa [answer, hg] using h, rfl⟩
    | some g' => exact ⟨g, by simpa [answer, hg] using happend _, rfl⟩
  | render number' request =>
    cases hg : w.generators[number']? with
    | none => exact ⟨g, by simpa [answer, hg] using h, rfl⟩
    | some g' =>
      by_cases hnumber : number' = number
      · obtain rfl := hnumber
        obtain ⟨hlt, rfl⟩ := List.getElem?_eq_some_iff.1 h
        exact ⟨_, by simp [answer, hlt], request.format_run _⟩
      · exact ⟨g, by simpa [answer, hg, hnumber] using h, rfl⟩

theorem eq_length_of_answer {event : Event} (h : number < (w.answer event).2.generators.length)
    (hnew : ¬ number < w.generators.length) :
    number = w.generators.length
      ∧ ((∃ factory d, event = .construct factory d)
        ∨ ∃ number' step, number' < w.generators.length ∧ event = .derive number' step) := by
  have hlast (hlt : number < w.generators.length + 1) : number = w.generators.length :=
    Nat.eq_of_lt_succ_of_not_lt hlt hnew
  cases event with
  | setCurrent f => exact absurd h hnew
  | construct factory d =>
    exact ⟨hlast (Nat.lt_of_lt_of_eq h List.length_append), .inl ⟨factory, d, rfl⟩⟩
  | derive number' step =>
    cases hg : w.generators[number']? with
    | none => exact absurd (by simpa [answer, hg] using h) hnew
    | some g =>
      obtain ⟨hlt, -⟩ := List.getElem?_eq_some_iff.1 hg
      exact ⟨hlast (by simpa [answer, hg] using h), .inr ⟨number', step, hlt, rfl⟩⟩
  | render number' request =>
    exact absurd (by cases hg : w.generators[number']? <;> simpa [answer, hg] using h) hnew

end Workshop

/-! Histories. -/

theorem lastSet_concat (history : List Event) (event : Event) :
    lastSet (history ++ [event]) = event.set?.getD (lastSet history) := by
  cases hset : event.set? <;> simp [lastSet, hset]

theorem lastGiven?_concat (path : List Generator.Step) (step : Generator.Step) :
    lastGiven? (path ++ [step]) = step.given?.or (lastGiven? path) := by
  cases hgiven : step.given? <;> simp [lastGiven?, hgiven]

theorem current_after (history : List Event) : (after history).current = lastSet history := by
  induction history using List.reverseRecOn with
  | nil => rfl
  | append_singleton history event ih =>
    rw [Workshop.after_concat, Workshop.current_answer, lastSet_concat, ih]

/-- A generator has the format that it was given last, or else the one its root has copied. -/
theorem Descends.exists_format (h : Descends history number root path) :
    ∃ g, (after history).generators[number]? = some g
      ∧ g.format = (lastGiven? path).getD (lastSet root) := by
  induction h with
  | root history factory d =>
    let g := ((Generator.new factory d).run (after history).current).1
    refine ⟨g, ?_, current_after history⟩
    rw [Workshop.after_concat]
    exact List.getElem?_concat_length
  | @step history root number path h step ih =>
    obtain ⟨g, hg, hformat⟩ := ih
    refine ⟨step.apply g, ?_, ?_⟩
    · rw [Workshop.after_concat]
      simp [Workshop.answer, hg]
    · rw [step.format_apply, hformat, lastGiven?_concat]
      cases step.given? <;> rfl
  | later h event ih =>
    obtain ⟨g, hg, hformat⟩ := ih
    obtain ⟨g', hg', hsame⟩ := Workshop.exists_answer hg event
    exact ⟨g', by rw [Workshop.after_concat, hg'], hsame.trans hformat⟩

theorem exists_descends (history : List Event) (h : number < (after history).generators.length) :
    ∃ root path, Descends history number root path := by
  induction history using List.reverseRecOn generalizing number with
  | nil => exact absurd h (Nat.not_lt_zero number)
  | append_singleton history event ih =>
    by_cases hlt : number < (after history).generators.length
    · obtain ⟨root, path, hdescends⟩ := ih hlt
      exact ⟨root, path, hdescends.later event⟩
    -- The generator is new, so the event has made it.
    rw [Workshop.after_concat] at h
    obtain ⟨hnew, hmade⟩ := Workshop.eq_length_of_answer h hlt
    subst hnew
    obtain ⟨factory, d, rfl⟩ | ⟨number', step, hlt', rfl⟩ := hmade
    · exact ⟨history, [], .root history factory d⟩
    · obtain ⟨root, path, hdescends⟩ := ih hlt'
      exact ⟨root, path ++ [step], hdescends.step step⟩

/-- What is kept of the formats through some events. -/
structure KeepsFormats (history : List Event) : Prop where
  /-- To set the current format gives back the one that was set before. -/
  replaced : ∀ f, ((after history).answer (.setCurrent f)).1 = .replaced (lastSet history)
  descends : ∀ number < (after history).generators.length,
    ∃ root path, Descends history number root path
  /-- What a generator writes is laid out in the format that it was given last on its path, or else
  in the one that was set last before its root was constructed. -/
  rendered : ∀ number root path, Descends history number root path →
    let format := (lastGiven? path).getD (lastSet root)
    ∃ g, (after history).generators[number]? = some g
      ∧ g.dispatcher.format = format
      ∧ ∀ request, ((after history).answer (.render number request)).1 =
          .texts (request.run { g with format }).1

/-- Every generator keeps its own format, whatever is done with the current one. -/
theorem formats_kept (history : List Event) : KeepsFormats history where
  replaced f := congrArg Answer.replaced (current_after history)
  descends _ h := exists_descends history h
  rendered number root path h := by
    obtain ⟨g, hg, hformat⟩ := h.exists_format
    refine ⟨g, hg, hformat, fun request => ?_⟩
    rw [← hformat]
    simp [Workshop.answer, hg]

theorem formats_kept_cousins :
    let tabs : Format := ⟨"\t", "\r\n"⟩
    let history : List Event :=
      [.construct Markup.factory {}, .setCurrent tabs, .construct Markup.factory {},
        .setCurrent .standard, .derive 1 .fresh, .derive 2 (.withFormat (.spaces 2))]
    let page : Request :=
      .text ⟨.tag { name := "a", children := [.tag { name := "b" }] }, []⟩
    let answer (event : Event) : Answer := ((after history).answer event).1
    (∃ g, (after history).generators[2]? = some g ∧ g.dispatcher.format = tabs)
      ∧ answer (.render 0 page) = .texts ["<a>\n    <b/>\n</a>"]
      ∧ answer (.render 2 page) = .texts ["<a>\r\n\t<b/>\r\n</a>"]
      ∧ answer (.render 3 page) = .texts ["<a>\n  <b/>\n</a>"] := by
  intro tabs history page answer
  have hroot : Descends (history.take 3) 1 (history.take 2) [] :=
    .root (history.take 2) Markup.factory {}
  have hfresh : Descends (history.take 5) 2 (history.take 2) [.fresh] :=
    (hroot.later (.setCurrent .standard)).step .fresh
  have hdescends : Descends history 2 (history.take 2) [.fresh] := hfresh.later _
  obtain ⟨g, hg, hformat, -⟩ := (formats_kept history).rendered 2 _ _ hdescends
  exact ⟨⟨g, hg, hformat⟩, by decide +kernel, by decide +kernel, by decide +kernel⟩

end Scribe
