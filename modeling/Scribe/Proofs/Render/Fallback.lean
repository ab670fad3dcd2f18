import Scribe.Proofs.Render.Depth
import Scribe.Proofs.Render.Handle

/-!
Factories that stand behind others. A factory that is added after those of a generator is tried for
a node only where these give no text; as long as they answer each node that is rendered, it makes no
difference to the rendering and none of its transforms runs.
-/
namespace Scribe

variable {cs : List Candidate} {d : Dependencies}

theorem firstText_append (later : List Candidate)
    {attempt attempt' : Candidate → Dependencies → Option String × Dependencies}
    (h : ∀ t ∈ tried attempt false cs d, attempt' t.1 t.2 = attempt t.1 t.2)
    (htext : (firstText attempt cs d).1 ≠ none) :
    firstText attempt' (cs ++ later) d = firstText attempt cs d
      ∧ tried attempt' false (cs ++ later) d = tried attempt false cs d := by
  induction cs generalizing d with
  | nil => exact absurd rfl htext
  | cons c cs ih =>
    rcases hattempt : attempt c d with ⟨text, e⟩
    simp only [tried, firstText, hattempt] at h htext ⊢
    obtain ⟨hc, hcs⟩ := List.forall_mem_cons.1 h
    rw [hattempt] at hc
    cases text with
    | some text => simp [firstText, tried, hc]
    | none =>
      obtain ⟨hfirst, htried⟩ := ih hcs htext
      simp [firstText, tried, hc, hfirst, htried]

namespace Dispatcher

variable {s s' : Dispatcher} {remaining : Nat} {stack : Stack} {n : Node}

/-- For each kind the candidates of `s` are tried first, and then perhaps more. -/
structure Extends (s' s : Dispatcher) : Prop where
  format : s'.format = s.format
  candidates : ∀ k, ∃ later, s'.table.candidates k = s.table.candidates k ++ later

/-- Nodes are asked for by their first text only. -/
def OnlyFirst (s : Dispatcher) (remaining : Nat) (stack : Stack) (n : Node)
    (d : Dependencies) : Prop :=
  ∀ v ∈ s.visits remaining stack false n d, ∀ a ∈ v.asks, a.all = false

/-- Each node that is dispatched while there is room on the stack gives a text. -/
structure Answered (s : Dispatcher) (remaining : Nat) (stack : Stack) (n : Node)
    (d : Dependencies) : Prop where
  root : 0 < remaining → ((s.children remaining stack).first n d).1 ≠ none
  asked : ∀ v ∈ s.visits remaining stack false n d,
    v.stack.depth + 1 < stack.depth + remaining → ∀ a ∈ v.asks, a.texts ≠ []

def asksOf (s : Dispatcher) (remaining : Nat) (stack : Stack) (n : Node)
    (t : Candidate × Dependencies) : List Ask :=
  (t.1.transform.script ⟨s.format, stack.push n⟩ n).asks (s.children remaining (stack.push n)) t.2

/-- The candidates that are tried for a node, each with the dependencies it meets. -/
def triedFor (s : Dispatcher) (remaining : Nat) (stack : Stack) (all : Bool) (n : Node)
    (d : Dependencies) : List (Candidate × Dependencies) :=
  tried (s.attempt stack (s.children remaining) n) all (s.table.candidates n.kind) d

def visitOf (s : Dispatcher) (remaining : Nat) (stack : Stack) (n : Node)
    (t : Candidate × Dependencies) : Visit :=
  ⟨t.1, n, stack, t.2, s.asksOf remaining stack n t,
    (s.attempt stack (s.children remaining) n t.1 t.2).1,
    (s.attempt stack (s.children remaining) n t.1 t.2).2⟩

theorem visits_succ (s : Dispatcher) (remaining : Nat) (stack : Stack) (all : Bool) (n : Node)
    (d : Dependencies) :
    s.visits (remaining + 1) stack all n d =
      (s.triedFor remaining stack all n d).flatMap fun t =>
        s.visitOf remaining stack n t
          :: (s.asksOf remaining stack n t).flatMap fun a =>
            s.visits remaining (stack.push n) a.all a.node a.before := rfl

theorem mem_visits_of_tried {all : Bool} {t : Candidate × Dependencies}
    (ht : t ∈ s.triedFor remaining stack all n d) :
    s.visitOf remaining stack n t ∈ s.visits (remaining + 1) stack all n d := by
  rw [visits_succ]
  exact List.mem_flatMap.2 ⟨t, ht, List.mem_cons_self⟩

theorem mem_visits_of_asks {all : Bool} {t : Candidate × Dependencies} {a : Ask} {v : Visit}
    (ht : t ∈ s.triedFor remaining stack all n d) (ha : a ∈ s.asksOf remaining stack n t)
    (hv : v ∈ s.visits remaining (stack.push n) a.all a.node a.before) :
    v ∈ s.visits (remaining + 1) stack all n d := by
  rw [visits_succ]
  exact List.mem_flatMap.2 ⟨t, ht, List.mem_cons_of_mem _ (List.mem_flatMap.2 ⟨a, ha, hv⟩)⟩

theorem OnlyFirst.ask (h : s.OnlyFirst (remaining + 1) stack n d)
    {t : Candidate × Dependencies} (ht : t ∈ s.triedFor remaining stack false n d) {a : Ask}
    (ha : a ∈ s.asksOf remaining stack n t) :
    a.all = false ∧ s.OnlyFirst remaining (stack.push n) a.node a.before := by
  have hall : a.all = false := h _ (mem_visits_of_tried ht) a ha
  exact ⟨hall, fun v hv => h v (mem_visits_of_asks ht ha (hall ▸ hv))⟩

theorem Answered.ask (h : s.Answered (remaining + 1) stack n d)
    {t : Candidate × Dependencies} (ht : t ∈ s.triedFor remaining stack false n d) {a : Ask}
    (ha : a ∈ s.asksOf remaining stack n t) (hall : a.all = false) :
    s.Answered remaining (stack.push n) a.node a.before where
  root hroom := by
    have htexts : a.texts ≠ [] := by
      refine h.asked _ (mem_visits_of_tried ht) ?_ a ha
      change stack.depth + 1 < stack.depth + (remaining + 1)
      omega
    rw [Script.texts_of_mem_asks ha hall] at htexts
    exact fun hnone => htexts (by rw [hnone]; rfl)
  asked v hv hroom := by
    refine h.asked v (mem_visits_of_asks ht ha (hall ▸ hv)) ?_
    rw [Stack.depth_push] at hroom
    omega

/-- Where each node is answered, a dispatcher that tries more renders alike, by the same runs. -/
theorem Extends.alike (hs : s'.Extends s) (hfirst : s.OnlyFirst remaining stack n d)
    (h : s.Answered remaining stack n d) :
    (s'.children remaining stack).first n d = (s.children remaining stack).first n d
      ∧ s'.visits remaining stack false n d = s.visits remaining stack false n d := by
  induction remaining generalizing stack n d with
  | zero => exact ⟨rfl, rfl⟩
  | succ remaining ih =>
    -- a candidate's run depends on its children alone, and these come out alike
    have hchild {t : Candidate × Dependencies} (ht : t ∈ s.triedFor remaining stack false n d)
        {a : Ask} (ha : a ∈ s.asksOf remaining stack n t) := by
      obtain ⟨hall, hinner⟩ := hfirst.ask ht ha
      exact And.intro hall (ih hinner (h.ask ht ha hall))
    have hrun {t : Candidate × Dependencies} (ht : t ∈ s.triedFor remaining stack false n d) :
        let script := t.1.transform.script ⟨s.format, stack.push n⟩ n
        let c := s.children remaining (stack.push n)
        let c' := s'.children remaining (stack.push n)
        script.run c' t.2 = script.run c t.2 ∧ script.asks c' t.2 = script.asks c t.2 :=
      Script.run_congr fun a ha => And.intro (hchild ht ha).1 (hchild ht ha).2.1
    have hattempt {t : Candidate × Dependencies} (ht : t ∈ s.triedFor remaining stack false n d) :
        s'.attempt stack (s'.children remaining) n t.1 t.2 =
          s.attempt stack (s.children remaining) n t.1 t.2 := by
      unfold attempt
      rw [hs.format]
      exact (hrun ht).1
    have hasks {t : Candidate × Dependencies} (ht : t ∈ s.triedFor remaining stack false n d) :
        s'.asksOf remaining stack n t = s.asksOf remaining stack n t := by
      unfold asksOf
      rw [hs.format]
      exact (hrun ht).2
    obtain ⟨later, hlater⟩ := hs.candidates n.kind
    have htext : (firstText (s.attempt stack (s.children remaining) n)
        (s.table.candidates n.kind) d).1 ≠ none := by
      intro hnone
      apply h.root (Nat.succ_pos remaining)
      simp only [children, dispatch_eq, hnone, Option.map_none]
    obtain ⟨hsame, htried⟩ := firstText_append later (fun t ht => hattempt ht) htext
    rw [← hlater] at hsame htried
    constructor
    · simp only [children, dispatch_eq, hsame]
    · rw [visits_succ, visits_succ]
      have htriedFor : s'.triedFor remaining stack false n d =
          s.triedFor remaining stack false n d := htried
      rw [htriedFor]
      refine List.flatMap_congr fun t ht => ?_
      rw [visitOf, visitOf, hasks ht, hattempt ht]
      congr 1
      refine List.flatMap_congr fun a ha => ?_
      obtain ⟨hall, -, hvisits⟩ := hchild ht ha
      rw [hall, hvisits]

end Dispatcher

namespace Generator

/-- Each node that is dispatched when a node is rendered, itself included, gives a text, unless it
lies beyond the depth limit. -/
def Answered (g : Generator) (n : Node) : Prop :=
  g.dispatcher.Answered g.maxDepth {} n g.dependencies

variable {g : Generator} {n : Node}

theorem UpToDate.extends_withFactory (h : g.UpToDate) (later : Factory) :
    (g.withFactory later).dispatcher.Extends g.dispatcher where
  format := rfl
  candidates k := by
    have htable : g.dispatcher.table = .build g.factories := h
    refine ⟨resolve [later] k, ?_⟩
    rw [htable, candidates_build]
    exact (candidates_build (g.factories ++ [later]) k).trans (List.flatMap_append ..)

theorem UpToDate.render_withFactory (hg : g.UpToDate) (later : Factory)
    (hfirst : ∀ v ∈ g.visits n, ∀ a ∈ v.asks, a.all = false) (h : g.Answered n) :
    (g.withFactory later).render n = ((g.render n).1, (g.render n).2.withFactory later)
      ∧ (g.withFactory later).visits n = g.visits n := by
  obtain ⟨hsame, hvisits⟩ := (hg.extends_withFactory later).alike hfirst h
  refine ⟨?_, hvisits⟩
  exact congrArg (fun r => (r.1.map (·.text), (g.withFactory later).withDependencies r.2)) hsame

end Generator

namespace Binding

variable {b : Binding} {f : Format} {remaining : Nat} {stack : Stack} {n : Node}

theorem candidate_of_mem_visits {all : Bool} {v : Visit}
    (hv : v ∈ (b.dispatcher f).visits remaining stack all n d) :
    v.candidate.factory = b.factory ∧ b.transform? v.node.kind = some v.candidate.transform := by
  obtain ⟨_, _, _, _, t, ht, rfl⟩ := exists_ownVisit hv
  exact ⟨rfl, ht⟩

theorem Complete.onlyFirst {sort : Item → Prop} {rank : Item → Nat}
    {excused : Stack → Node → Dependencies → Prop} (hb : b.Complete sort rank excused)
    (h : sort n.item) : (b.dispatcher f).OnlyFirst remaining stack n d := by
  induction remaining generalizing stack n d with
  | zero => exact fun v hv => nomatch hv
  | succ remaining ih =>
    intro v hv a ha
    rcases mem_visits_succ.1 hv with ⟨t, -, rfl⟩ | ⟨a', ha', hv⟩
    · exact (hb.asks h ha).1
    · obtain ⟨hall, hsort, -⟩ := hb.asks h ha'
      rw [hall] at hv
      exact ih hsort v hv a ha

end Binding

end Scribe
