import Scribe.Proofs.Layout.Line

/-!
What varies with the format, as a function of the format.
-/
namespace Scribe

def Fixed (p : α → Prop) (t : RegularFormat → α) : Prop := ∃ a, p a ∧ t = fun _ => a

/-- In all formats something or in none. -/
def Perhaps (Q : (RegularFormat → α) → Prop) (t : RegularFormat → Option α) : Prop :=
  (t = fun _ => none) ∨ ∃ u, Q u ∧ t = fun f => some (u f)

def Each (Q : (RegularFormat → α) → Prop) (ts : RegularFormat → List α) : Prop :=
  ∃ us : List (RegularFormat → α), (∀ u ∈ us, Q u) ∧ ts = fun f => us.map (· f)

namespace Each

variable {Q : (RegularFormat → α) → Prop} {ts us : RegularFormat → List α} {t : RegularFormat → α}

theorem nil : Each Q fun _ => [] := ⟨[], nofun, rfl⟩

theorem cons (ht : Q t) (hts : Each Q ts) : Each Q fun f => t f :: ts f := by
  obtain ⟨ts, hts, rfl⟩ := hts
  exact ⟨t :: ts, List.forall_mem_cons.2 ⟨ht, hts⟩, rfl⟩

theorem append (hts : Each Q ts) (hus : Each Q us) : Each Q fun f => ts f ++ us f := by
  obtain ⟨ts, hts, rfl⟩ := hts
  obtain ⟨us, hus, rfl⟩ := hus
  exact ⟨ts ++ us, List.forall_mem_append.2 ⟨hts, hus⟩, funext fun f => List.map_append.symm⟩

theorem of_forall {l : List α} (h : ∀ a ∈ l, Q fun _ => a) : Each Q fun _ => l := by
  refine ⟨l.map fun a _ => a, ?_, funext fun f => ?_⟩
  · rw [List.forall_mem_map]
    exact h
  · rw [List.map_map]
    exact (List.map_id l).symm

theorem map {Q' : (RegularFormat → β) → Prop} {g : RegularFormat → α → β} (hts : Each Q ts)
    (h : ∀ t, Q t → Q' fun f => g f (t f)) : Each Q' fun f => (ts f).map (g f) := by
  obtain ⟨ts, hts, rfl⟩ := hts
  refine ⟨ts.map fun t f => g f (t f), ?_, funext fun f => ?_⟩
  · rw [List.forall_mem_map]
    exact fun t ht => h t (hts t ht)
  · rw [List.map_map, List.map_map]
    rfl

theorem fixed {p : α → Prop} (hts : Each (Fixed p) ts) : Fixed (fun l => ∀ a ∈ l, p a) ts := by
  obtain ⟨ts, hts, rfl⟩ := hts
  induction ts with
  | nil => exact ⟨[], nofun, rfl⟩
  | cons t ts ih =>
    obtain ⟨ht, hrest⟩ := List.forall_mem_cons.1 hts
    obtain ⟨a, ha, rfl⟩ := ht
    obtain ⟨l, hl, heq⟩ := ih hrest
    refine ⟨a :: l, List.forall_mem_cons.2 ⟨ha, hl⟩, funext fun f => ?_⟩
    exact congrArg (a :: ·) (congrFun heq f)

end Each

namespace Perhaps

variable {Q Q' : (RegularFormat → α) → Prop} {t : RegularFormat → Option α}

theorem mono (ht : Perhaps Q t) (h : ∀ t, Q t → Q' t) : Perhaps Q' t :=
  ht.imp_right fun ⟨u, hu, heq⟩ => ⟨u, h u hu, heq⟩

end Perhaps

theorem Each.filter_of {Q : (RegularFormat → String) → Prop}
    (hQ : ∀ t, Q t → (∀ f, t f = "") ∨ ∀ f, t f ≠ "") {ts : RegularFormat → List String}
    (hts : Each Q ts) :
    Each (fun t => Q t ∧ ∀ f, t f ≠ "") fun f => (ts f).filter (· != "") := by
  obtain ⟨ts, hts, rfl⟩ := hts
  induction ts with
  | nil => exact .nil
  | cons t ts ih =>
    obtain ⟨ht, hts⟩ := List.forall_mem_cons.1 hts
    rcases hQ t ht with hempty | hempty
    · simpa [hempty] using ih hts
    · simpa [hempty] using Each.cons ⟨ht, hempty⟩ (ih hts)

end Scribe
