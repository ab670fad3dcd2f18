import Scribe.Proofs.Layout.Formats
import Scribe.Proofs.Render.Trace

/-!
Scripts that do the same in every format: they leave the same dependencies behind, and what they
give differs no more than the format demands.
-/
namespace Scribe

def Dependencies.OneLine (d : Dependencies) : Prop := ∀ name ∈ d.loaded, Text.OneLine name

/-- A script, run in every format from the same dependencies, gives results that satisfy `Q`. -/
def Uniform (c : RegularFormat → Children) (Q : (RegularFormat → α) → Prop)
    (s : RegularFormat → Script α) : Prop :=
  ∀ d : Dependencies, d.OneLine →
    ∃ a e, Q a ∧ e.OneLine ∧ ∀ f, (s f).run (c f) d = (a f, e)

def Paged (t : RegularFormat → Option String) : Prop :=
  ∃ ls : List Line, t = fun f => some (f.1.page ls)

def PagedBy (Q : List Line → Prop) (t : RegularFormat → Option String) : Prop :=
  ∃ ls : List Line, Q ls ∧ t = fun f => some (f.1.page ls)

theorem PagedBy.paged {Q : List Line → Prop} {t : RegularFormat → Option String}
    (h : PagedBy Q t) : Paged t :=
  h.imp fun _ => And.right

section

open Script

variable {c : RegularFormat → Children} {Q : (RegularFormat → α) → Prop}
  {Q' : (RegularFormat → β) → Prop}

theorem Uniform.mono {Q' : (RegularFormat → α) → Prop} {s : RegularFormat → Script α}
    (hs : Uniform c Q s) (h : ∀ a, Q a → Q' a) : Uniform c Q' s := by
  intro d hd
  obtain ⟨a, e, ha, he, hrun⟩ := hs d hd
  exact ⟨a, e, h a ha, he, hrun⟩

theorem uniform_pure {a : RegularFormat → α} (h : Q a) : Uniform c Q fun f => pure (a f) :=
  fun d hd => ⟨a, d, h, hd, fun _ => rfl⟩

theorem uniform_none : Uniform c (Perhaps Q) fun _ => (pure none : Script (Option α)) :=
  uniform_pure (.inl rfl)

theorem uniform_bind {s : RegularFormat → Script α} {k : RegularFormat → α → Script β}
    (hs : Uniform c Q s) (hk : ∀ a, Q a → Uniform c Q' fun f => k f (a f)) :
    Uniform c Q' fun f => s f >>= k f := by
  intro d hd
  obtain ⟨a, d', ha, hd', hrun⟩ := hs d hd
  obtain ⟨b, e, hb, he, hrun'⟩ := hk a ha d' hd'
  refine ⟨b, e, hb, he, fun f => ?_⟩
  rw [run_monadBind, hrun f, hrun' f]

theorem uniform_dependencies_bind {k : RegularFormat → Dependencies → Script α}
    (hk : ∀ d : Dependencies, d.OneLine → Uniform c Q fun f => k f d) :
    Uniform c Q fun f => dependencies >>= k f :=
  fun d hd => hk d hd d hd

theorem uniform_texts {ns : List Node} {Q : (RegularFormat → String) → Prop}
    (h : ∀ n ∈ ns, Uniform c (Perhaps Q) fun _ => text? n) :
    Uniform c (Each Q) fun _ => texts ns := by
  induction ns with
  | nil => exact uniform_pure .nil
  | cons n ns ih =>
    obtain ⟨hn, hns⟩ := List.forall_mem_cons.1 h
    simp only [texts_cons]
    refine uniform_bind hn fun text htext => ?_
    refine uniform_bind (ih hns) fun rest hrest => uniform_pure ?_
    rcases htext with rfl | ⟨u, hu, rfl⟩
    · exact hrest
    · exact .cons hu hrest

/-! Scripts that may end early. -/

theorem uniform_draftBind {x : RegularFormat → OptionT Script α}
    {k : RegularFormat → α → OptionT Script β} (hx : Uniform c (Perhaps Q) fun f => (x f).run)
    (hk : ∀ a, Q a → Uniform c (Perhaps Q') fun f => (k f (a f)).run) :
    Uniform c (Perhaps Q') fun f => (x f >>= k f).run := by
  simp only [OptionT.run_bind]
  refine uniform_bind hx fun a ha => ?_
  rcases ha with rfl | ⟨a, ha, rfl⟩
  · exact uniform_pure (.inl rfl)
  · exact hk a ha

theorem uniform_draftPure {a : RegularFormat → α} (h : Q a) :
    Uniform c (Perhaps Q) fun f => (pure (a f) : OptionT Script α).run :=
  uniform_pure (.inr ⟨a, h, rfl⟩)

theorem uniform_lift {s : RegularFormat → Script α} (hs : Uniform c Q s) :
    Uniform c (Perhaps Q) fun f => (liftM (s f) : OptionT Script α).run :=
  uniform_bind hs fun _ ha => uniform_draftPure ha

theorem uniform_some {s : RegularFormat → Script α} (hs : Uniform c Q s) :
    Uniform c (Perhaps Q) fun f => do return some (← s f) :=
  uniform_lift hs

end

end Scribe
