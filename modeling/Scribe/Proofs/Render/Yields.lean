import Scribe.Proofs.Render.Trace

/-!
What holds of the result of a script, as soon as something holds of what its children give. A
condition on the dependencies is kept on the way.
-/
namespace Scribe

/-- A script, run from dependencies with `I`, gives a result with `Q` and leaves `I` as it is. -/
def Yields (c : Children) (I : Dependencies → Prop) (Q : α → Prop) (s : Script α) : Prop :=
  ∀ d, I d → Q (s.run c d).1 ∧ I (s.run c d).2

abbrev Gives (c : Children) (I : Dependencies → Prop) (Q : α → Prop) (s : Script (Option α)) :
    Prop :=
  Yields c I (fun r => ∀ a ∈ r, Q a) s

section

open Script

variable {c : Children} {I : Dependencies → Prop} {Q : α → Prop} {Q' : β → Prop}

theorem Yields.mono {Q' : α → Prop} {s : Script α} (hs : Yields c I Q s) (h : ∀ a, Q a → Q' a) :
    Yields c I Q' s :=
  fun d hd => (hs d hd).imp_left (h _)

theorem yields_pure {a : α} (h : Q a) : Yields c I Q (pure a) := fun _ hd => ⟨h, hd⟩

theorem yields_bind {s : Script α} {k : α → Script β} (hs : Yields c I Q s)
    (hk : ∀ a, Q a → Yields c I Q' (k a)) : Yields c I Q' (s >>= k) := by
  intro d hd
  obtain ⟨ha, he⟩ := hs d hd
  rw [run_monadBind]
  exact hk _ ha _ he

theorem yields_dependencies_bind {k : Dependencies → Script α}
    (hk : ∀ d, I d → Yields c I Q (k d)) : Yields c I Q (dependencies >>= k) :=
  fun d hd => hk d hd d hd

theorem yields_texts {ns : List Node} {Q : String → Prop} (h : ∀ n ∈ ns, Gives c I Q (text? n)) :
    Yields c I (fun ts => ∀ t ∈ ts, Q t) (texts ns) := by
  induction ns with
  | nil => exact yields_pure fun _ ht => nomatch ht
  | cons n ns ih =>
    obtain ⟨hn, hns⟩ := List.forall_mem_cons.1 h
    rw [texts_cons]
    refine yields_bind hn fun text htext => yields_bind (ih hns) fun rest hrest => yields_pure ?_
    rw [List.forall_mem_append]
    exact ⟨fun t ht => htext t (Option.mem_toList.1 ht), hrest⟩

theorem gives_none : Gives c I Q (pure none) := yields_pure fun _ ha => nomatch ha

theorem gives_some {a : α} (h : Q a) : Gives c I Q (pure (some a)) :=
  yields_pure fun _ ha => Option.some.inj ha ▸ h

theorem gives_map {s : Script α} (hs : Yields c I Q s) :
    Gives c I Q (do return some (← s)) :=
  yields_bind hs fun _ ha => gives_some ha

/-! Scripts that may end early. -/

theorem gives_draftBind {x : OptionT Script α} {k : α → OptionT Script β} (hx : Gives c I Q x.run)
    (hk : ∀ a, Q a → Gives c I Q' (k a).run) : Gives c I Q' (x >>= k).run := by
  rw [OptionT.run_bind]
  refine yields_bind hx fun a ha => ?_
  cases a with
  | none => exact gives_none
  | some a => exact hk a (ha a rfl)

theorem gives_draftPure {a : α} (h : Q a) : Gives c I Q (pure a : OptionT Script α).run :=
  gives_some h

theorem gives_lift {s : Script α} (hs : Yields c I Q s) :
    Gives c I Q (liftM s : OptionT Script α).run :=
  gives_map hs

/-! Where nothing is asked of the dependencies. -/

theorem yields_last {s : Script α} {k : α → Script β}
    (hk : ∀ a, Yields c (fun _ => True) Q' (k a)) : Yields c (fun _ => True) Q' (s >>= k) :=
  yields_bind (Q := fun _ => True) (fun _ _ => ⟨trivial, trivial⟩) fun a _ => hk a

theorem gives_last {x : OptionT Script α} {k : α → OptionT Script β}
    (hk : ∀ a, Gives c (fun _ => True) Q' (k a).run) : Gives c (fun _ => True) Q' (x >>= k).run :=
  gives_draftBind (Q := fun _ => True) (fun _ _ => ⟨fun _ _ => trivial, trivial⟩) fun a _ => hk a

end

end Scribe
