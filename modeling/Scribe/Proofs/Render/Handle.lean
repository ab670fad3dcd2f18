import Scribe.Proofs.Render.Dispatch

/-!
Rendering from within. While a node is rendered its transforms have a handle on the session, which
knows the nodes around; at the root it knows none. Each of the three ways to render a node with a
handle runs the candidates in turn, and they agree on what comes of it.
-/
namespace Scribe

/-! Candidates in turn. -/

section

variable (attempt : Candidate → Dependencies → Option String × Dependencies)

def inTurn : List Candidate → Dependencies → List (Candidate × Option String) × Dependencies
  | [], d => ([], d)
  | c :: cs, d =>
    let (text, d) := attempt c d
    let (rest, d) := inTurn cs d
    ((c, text) :: rest, d)

abbrev silent (cs : List Candidate) : List (Candidate × Option String) := cs.map (·, none)

variable {attempt} {cs : List Candidate} {d e : Dependencies} {c : Candidate} {text : String}

theorem inTurn_of_firstText_none (h : firstText attempt cs d = (none, e)) :
    inTurn attempt cs d = (silent cs, e) := by
  induction cs generalizing d with
  | nil => exact congrArg (([], ·)) (congrArg Prod.snd h)
  | cons c cs ih =>
    rcases hattempt : attempt c d with ⟨text, d'⟩
    simp only [firstText, hattempt] at h
    cases text with
    | some text => exact nomatch congrArg Prod.fst h
    | none =>
      simp only [inTurn, hattempt, ih h, silent, List.map_cons]

theorem inTurn_of_firstText_some (h : firstText attempt cs d = (some (c, text), e)) :
    ∃ before after, cs = before ++ c :: after
      ∧ inTurn attempt (before ++ [c]) d = (silent before ++ [(c, some text)], e) := by
  induction cs generalizing d with
  | nil => exact nomatch congrArg Prod.fst h
  | cons c' cs ih =>
    rcases hattempt : attempt c' d with ⟨text', d'⟩
    simp only [firstText, hattempt] at h
    cases text' with
    | some text' =>
      simp only [Prod.mk.injEq, Option.some.injEq] at h
      obtain ⟨⟨rfl, rfl⟩, rfl⟩ := h
      exact ⟨[], cs, rfl, by simp [inTurn, hattempt]⟩
    | none =>
      obtain ⟨before, after, rfl, hturn⟩ := ih h
      refine ⟨c' :: before, after, rfl, ?_⟩
      simp only [List.cons_append, inTurn, hattempt, hturn, silent, List.map_cons]

theorem everyText_eq (cs : List Candidate) (d : Dependencies) :
    everyText attempt cs d =
      ((inTurn attempt cs d).1.filterMap fun (c, text) => text.map (c, ·),
        (inTurn attempt cs d).2) := by
  induction cs generalizing d with
  | nil => rfl
  | cons c cs ih =>
    rcases hattempt : attempt c d with ⟨text, d'⟩
    simp only [everyText, inTurn, hattempt, ih]
    cases text <;> rfl

theorem everyText_sublist (cs : List Candidate) (d : Dependencies) :
    ((everyText attempt cs d).1.map (·.1)).Sublist cs := by
  induction cs generalizing d with
  | nil => exact .slnil
  | cons c cs ih =>
    rcases hattempt : attempt c d with ⟨text, d'⟩
    simp only [everyText, hattempt]
    cases text with
    | none => exact (ih d').cons c
    | some text => exact (ih d').cons_cons c

theorem head?_everyText (cs : List Candidate) (d : Dependencies) :
    (everyText attempt cs d).1.head? = (firstText attempt cs d).1 := by
  induction cs generalizing d with
  | nil => rfl
  | cons c cs ih =>
    rcases hattempt : attempt c d with ⟨text, d'⟩
    simp only [everyText, firstText, hattempt]
    cases text with
    | none => exact ih d'
    | some text => rfl

end

theorem Dispatcher.dispatch_eq (s : Dispatcher) (stack : Stack) (inner : Stack → Children) (n : Node)
    (d : Dependencies) :
    s.dispatch stack inner n d =
      let (found, d) := firstText (s.attempt stack inner n) (s.table.candidates n.kind) d
      (found.map fun (c, text) => ⟨n, text, c, stack.chain⟩, d) := by
  unfold dispatch
  split <;> next hfirst => rw [hfirst]; rfl

namespace Generator

def ofFactories (factories : List Factory) (d : Dependencies) (f : Format) (maxDepth : Nat) :
    Generator where
  factories := factories
  table := .build factories
  dependencies := d
  format := f
  maxDepth := maxDepth

end Generator

/-- A session while the nodes of a stack are being rendered. -/
structure Handle where
  generator : Generator
  stack : Stack := {}

namespace Handle

variable (h : Handle) (n : Node)

def remaining : Nat := h.generator.maxDepth - h.stack.depth

def children : Children := h.generator.dispatcher.children h.remaining h.stack

def render : Option String × Generator :=
  let (r, d) := h.children.first n h.generator.dependencies
  (r.map (·.text), h.generator.withDependencies d)

def renderWithProvenance : Option Provenance × Generator :=
  match h.remaining with
  | 0 => (none, h.generator)
  | remaining + 1 =>
    let s := h.generator.dispatcher
    let (p, d) := s.dispatch h.stack (s.children remaining) n h.generator.dependencies
    (p, h.generator.withDependencies d)

def renderAll : List Provenance × Generator :=
  match h.remaining with
  | 0 => ([], h.generator)
  | remaining + 1 =>
    let s := h.generator.dispatcher
    let (ps, d) := s.dispatchAll h.stack (s.children remaining) n h.generator.dependencies
    (ps, h.generator.withDependencies d)

/-- The handle that the transforms of a node have. -/
def enter : Handle := { h with stack := h.stack.push n }

/-- The handle inside some nodes, of which the outermost is entered first. -/
def inside (ns : List Node) : Handle := ns.foldl enter h

def attempt (c : Candidate) (d : Dependencies) : Option String × Dependencies :=
  let inner := h.enter n
  (c.transform.script ⟨inner.generator.format, inner.stack⟩ n).run inner.children d

/-- What a node is given to, best first: nothing where the stack is full. -/
def candidates : List Candidate :=
  if h.remaining = 0 then [] else h.generator.table.candidates n.kind

/-! The three ways. -/

def provenance (found : Candidate × String) : Provenance :=
  ⟨n, found.2, found.1, h.stack.chain⟩

theorem attempt_of_remaining {remaining : Nat} (hremaining : h.remaining = remaining + 1) :
    h.generator.dispatcher.attempt h.stack (h.generator.dispatcher.children remaining) n =
      h.attempt n := by
  have hinner : (h.enter n).remaining = remaining := by
    have hlimit : (h.enter n).remaining = h.generator.maxDepth - (h.stack.depth + 1) := rfl
    unfold Handle.remaining at hremaining
    omega
  funext c d
  unfold attempt Handle.children
  simp only [hinner]
  rfl

theorem renderWithProvenance_eq :
    h.renderWithProvenance n =
      let (found, d) := firstText (h.attempt n) (h.candidates n) h.generator.dependencies
      (found.map (h.provenance n), h.generator.withDependencies d) := by
  unfold renderWithProvenance candidates
  cases hremaining : h.remaining with
  | zero => rfl
  | succ remaining =>
    rw [if_neg (Nat.succ_ne_zero remaining)]
    simp only [Dispatcher.dispatch_eq, h.attempt_of_remaining n hremaining]
    rfl

theorem renderAll_eq :
    h.renderAll n =
      let (found, d) := everyText (h.attempt n) (h.candidates n) h.generator.dependencies
      (found.map (h.provenance n), h.generator.withDependencies d) := by
  unfold renderAll candidates
  cases hremaining : h.remaining with
  | zero => rfl
  | succ remaining =>
    rw [if_neg (Nat.succ_ne_zero remaining)]
    simp only [Dispatcher.dispatchAll, h.attempt_of_remaining n hremaining]
    rfl

theorem children_first :
    h.children.first n h.generator.dependencies =
      ((h.renderWithProvenance n).1.map (·.rendered), (h.renderWithProvenance n).2.dependencies) := by
  unfold children renderWithProvenance
  cases h.remaining <;> rfl

theorem children_every :
    h.children.every n h.generator.dependencies =
      ((h.renderAll n).1.map (·.rendered), (h.renderAll n).2.dependencies) := by
  unfold children renderAll
  cases h.remaining <;> rfl

theorem render_eq :
    h.render n = ((h.renderWithProvenance n).1.map (·.text), (h.renderWithProvenance n).2) := by
  unfold render children renderWithProvenance
  cases h.remaining with
  | zero => rfl
  | succ remaining => exact Prod.ext (Option.map_map ..) rfl

/-! Agreement. -/

/-- The three ways to render a node agree on what comes of the candidates for it. -/
structure Agree (candidates : List Candidate) (ancestors : List Node) : Prop where
  /-- Asking where a text comes from makes no difference. -/
  render : h.render n =
    ((h.renderWithProvenance n).1.map (·.text), (h.renderWithProvenance n).2)
  /-- A text comes from the first candidate that gives one. What those before it did stays done, and
  those after it are not run. -/
  first : ∀ p, (h.renderWithProvenance n).1 = some p → ∃ before after d,
    candidates = before ++ p.candidate :: after
      ∧ inTurn (h.attempt n) (before ++ [p.candidate]) h.generator.dependencies =
        (silent before ++ [(p.candidate, some p.text)], d)
      ∧ (h.renderWithProvenance n).2 = h.generator.withDependencies d
  /-- Without a text all candidates have been run. -/
  nothing : (h.renderWithProvenance n).1 = none → ∃ d,
    inTurn (h.attempt n) candidates h.generator.dependencies = (silent candidates, d)
      ∧ (h.renderWithProvenance n).2 = h.generator.withDependencies d
  /-- All texts are those of the candidates that give one when all are run. -/
  every : ∃ outcomes d, inTurn (h.attempt n) candidates h.generator.dependencies = (outcomes, d)
    ∧ (h.renderAll n).1.map (fun p => (p.candidate, p.text)) =
      outcomes.filterMap (fun (c, text) => text.map (c, ·))
    ∧ (h.renderAll n).2 = h.generator.withDependencies d
  order : ((h.renderAll n).1.map (·.candidate)).Sublist candidates
  empty : (h.renderAll n).1 = [] ↔ (h.render n).1 = none
  head : (h.renderAll n).1.head? = (h.renderWithProvenance n).1
  place : ∀ p ∈ (h.renderAll n).1, p.node = n ∧ p.ancestors = ancestors

theorem agree : h.Agree n (h.candidates n) h.stack.chain := by
  have hhead : (h.renderAll n).1.head? = (h.renderWithProvenance n).1 := by
    rw [renderAll_eq, renderWithProvenance_eq]
    simp only [List.head?_map, head?_everyText]
  refine ⟨h.render_eq n, ?first, ?nothing, ?every, ?order, ?empty, hhead, ?place⟩
  case first =>
    intro p hp
    rw [renderWithProvenance_eq] at hp ⊢
    rcases hfirst : firstText (h.attempt n) (h.candidates n) h.generator.dependencies with ⟨found, d⟩
    rw [hfirst] at hp
    obtain ⟨⟨c, text⟩, rfl, rfl⟩ := Option.map_eq_some_iff.1 hp
    obtain ⟨before, after, hcandidates, hturn⟩ := inTurn_of_firstText_some hfirst
    exact ⟨before, after, d, hcandidates, hturn, rfl⟩
  case nothing =>
    intro hnone
    rw [renderWithProvenance_eq] at hnone ⊢
    rcases hfirst : firstText (h.attempt n) (h.candidates n) h.generator.dependencies with ⟨found, d⟩
    rw [hfirst] at hnone
    obtain rfl := Option.map_eq_none_iff.1 hnone
    exact ⟨d, inTurn_of_firstText_none hfirst, rfl⟩
  case every =>
    refine ⟨_, _, rfl, ?_, ?_⟩ <;> rw [renderAll_eq, everyText_eq]
    rw [List.map_map]
    exact List.map_id _
  case order =>
    rw [renderAll_eq]
    simpa [Function.comp_def, provenance] using everyText_sublist (h.candidates n) _
  case empty =>
    rw [render_eq, Option.map_eq_none_iff, ← hhead, List.head?_eq_none_iff]
  case place =>
    rw [renderAll_eq, List.forall_mem_map]
    exact fun _ _ => ⟨rfl, rfl⟩

/-! The place of a handle. -/

theorem generator_inside (ns : List Node) : (h.inside ns).generator = h.generator := by
  induction ns generalizing h with
  | nil => rfl
  | cons m ns ih => exact ih (h.enter m)

/-- Around a node that is rendered inside others stand these, and what stood around them. -/
theorem chain_inside (ns : List Node) : (h.inside ns).stack.chain = h.stack.chain ++ ns := by
  induction ns generalizing h with
  | nil => exact (List.append_nil _).symm
  | cons m ns ih =>
    have hchain : (h.enter m).stack.chain = h.stack.chain ++ [m] := List.reverse_cons
    have hinner := ih (h.enter m)
    rw [hchain, List.append_assoc] at hinner
    exact hinner

end Handle

/-- In a session over any factories and in any state, the three ways to render a node agree, at the
root as well as for a transform, whatever the transforms do. -/
theorem renderings_agree (factories : List Factory) (d : Dependencies) (f : Format)
    (maxDepth : Nat) (ancestors : List Node) (n : Node) :
    let g := Generator.ofFactories factories d f maxDepth
    let root : Handle := { generator := g }
    let h := root.inside ancestors
    h.Agree n (if ancestors.length < maxDepth then resolve factories n.kind else []) ancestors
      ∧ (g.render n = root.render n ∧ g.renderWithProvenance n = root.renderWithProvenance n
        ∧ g.renderAll n = root.renderAll n)
      ∧ h.children.first n d =
        ((h.renderWithProvenance n).1.map (·.rendered), (h.renderWithProvenance n).2.dependencies)
      ∧ h.children.every n d =
        ((h.renderAll n).1.map (·.rendered), (h.renderAll n).2.dependencies) := by
  intro g root h
  have hgenerator : h.generator = g := root.generator_inside ancestors
  have hchain : h.stack.chain = ancestors := root.chain_inside ancestors
  have hcandidates : h.candidates n =
      if ancestors.length < maxDepth then resolve factories n.kind else [] := by
    have hdepth : h.stack.depth = ancestors.length := by
      rw [← hchain, Stack.chain, List.length_reverse]
      rfl
    have htable : g.table.candidates n.kind = resolve factories n.kind :=
      candidates_build factories n.kind
    have hlimit : g.maxDepth = maxDepth := rfl
    unfold Handle.candidates Handle.remaining
    rw [hgenerator, hdepth, htable, hlimit]
    by_cases hlt : ancestors.length < maxDepth
    · rw [if_pos hlt, if_neg (by omega)]
    · rw [if_neg hlt, if_pos (by omega)]
  have hdependencies : h.generator.dependencies = d := by
    rw [hgenerator]
    rfl
  refine ⟨?_, ⟨rfl, rfl, rfl⟩, ?_, ?_⟩
  · rw [← hcandidates, ← hchain]
    exact h.agree n
  · rw [← hdependencies]
    exact h.children_first n
  · rw [← hdependencies]
    exact h.children_every n

end Scribe
