import Scribe.Proofs.Model.Inside
import Scribe.Proofs.Render.Trace

/-!
Scripts that leave the dependencies alone: all they do is ask for children, each to be rendered by
its first transform, and make use of the texts. A predicate on items says which children they may
ask for.
-/
namespace Scribe

namespace Script

variable {p : Item → Prop}

inductive Quiet (p : Item → Prop) : Script α → Prop
  | done (a : α) : Quiet p (.done a)
  | first (n : Node) (next : Option Rendered → Script α) (inner : p n.item)
    (textual : ∀ r r', r.map (·.text) = r'.map (·.text) → next r = next r')
    (rest : ∀ r, Quiet p (next r)) : Quiet p (.first n next)

theorem quiet_pure (a : α) : Quiet p (pure a) := .done a

theorem quiet_bind {s : Script α} {f : α → Script β} (hs : Quiet p s) (hf : ∀ a, Quiet p (f a)) :
    Quiet p (s >>= f) := by
  induction hs with
  | done a => exact hf a
  | first n next inner textual _ ih =>
    exact .first n _ inner (fun r r' h => congrArg (·.bind f) (textual r r' h)) ih

theorem quiet_text? {n : Node} (h : p n.item) : Quiet p (text? n) :=
  .first n _ h (fun _ _ h => congrArg done h) fun _ => .done _

theorem quiet_texts {ns : List Node} (h : ∀ n ∈ ns, p n.item) : Quiet p (texts ns) := by
  induction ns with
  | nil => exact .done _
  | cons n ns ih =>
    rw [texts_cons]
    refine quiet_bind (quiet_text? (h n (by simp))) fun text => ?_
    exact quiet_bind (ih fun m hm => h m (by simp [hm])) fun rest => .done _

theorem Quiet.asks {s : Script α} (hs : Quiet p s) {c : Children} {d : Dependencies} {a : Ask}
    (ha : a ∈ s.asks c d) : a.all = false ∧ p a.node.item := by
  induction hs generalizing d with
  | done => exact nomatch ha
  | first n next inner _ _ ih =>
    rcases List.mem_cons.1 ha with rfl | ha
    · exact ⟨rfl, inner⟩
    · exact ih _ ha

theorem Quiet.run_congr {s : Script α} (hs : Quiet p s) {c c' : Children}
    (h : ∀ n : Node, p n.item → (text? n).run c' = (text? n).run c) : s.run c' = s.run c := by
  induction hs with
  | done => rfl
  | first n next inner textual _ ih =>
    funext d
    have hfirst := congrFun (h n inner) d
    rw [run_text?, run_text?, Prod.mk.injEq] at hfirst
    simp only [run]
    rw [textual _ _ hfirst.1, hfirst.2, ih]

end Script

theorem mem_parts {n m : Node} {slot : Slot} {as : List α} {item : α → Item}
    (h : m ∈ n.parts slot (as.map item)) : ∃ a ∈ as, ∃ place, m = ⟨item a, place⟩ := by
  obtain ⟨i, hi, rfl⟩ := List.mem_mapIdx.1 h
  obtain ⟨a, ha, heq⟩ := List.mem_map.1 (List.getElem_mem hi)
  exact ⟨a, ha, _, by rw [heq]⟩

namespace Script

theorem quiet_parts {p : Item → Prop} {n : Node} {slot : Slot} {as : List α} {item : α → Item}
    (h : ∀ a ∈ as, p (item a)) : Quiet p (texts (n.parts slot (as.map item))) := by
  apply quiet_texts
  intro m hm
  obtain ⟨a, ha, place, rfl⟩ := mem_parts hm
  exact h a ha

end Script

end Scribe
