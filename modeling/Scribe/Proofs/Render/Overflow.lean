import Scribe.Render.Overflow
import Scribe.Proofs.Render.Fallback

/-!
When a rendering breaks off: just when one of its runs does. And what the stack holds while a
transform runs: no more nodes than the depth limit allows.
-/
namespace Scribe

theorem Script.overflows_eq_any (c : Children) (below : Bool → Node → Dependencies → Bool)
    (s : Script α) (d : Dependencies) :
    s.overflows c below d = (s.asks c d).any fun a => below a.all a.node a.before := by
  induction s generalizing d with
  | done a => rfl
  | getDeps next ih => exact ih d d
  | putDeps e next ih => exact ih e
  | first n next ih | every n next ih => simp only [overflows, asks, List.any_cons, ih]

theorem anyOverflows_eq_any (attempt : Candidate → Dependencies → Option String × Dependencies)
    (overflows : Candidate → Dependencies → Bool) (all : Bool) (cs : List Candidate)
    (d : Dependencies) : anyOverflows attempt overflows all cs d =
      (tried attempt all cs d).any fun t => overflows t.1 t.2 := by
  induction cs generalizing d with
  | nil => rfl
  | cons c cs ih =>
    rw [anyOverflows, tried, List.any_cons, ih]
    split <;> rfl

namespace Dispatcher

variable {s : Dispatcher} {remaining : Nat} {stack : Stack} {all : Bool} {n : Node}
  {d : Dependencies}

/-- A rendering breaks off just when one of its runs does. -/
theorem overflows_eq_any : s.overflows remaining stack all n d =
    (s.visits remaining stack all n d).any fun v => v.candidate.transform.overflows v.node := by
  induction remaining generalizing stack all n d with
  | zero => rfl
  | succ remaining ih =>
    rw [visits_succ, List.any_flatMap]
    refine (anyOverflows_eq_any _ _ all _ d).trans (List.any_congr rfl fun t => ?_)
    rw [Script.overflows_eq_any, List.any_cons, List.any_flatMap]
    simp only [ih]
    rfl

theorem depth_lt_of_mem_visits {v : Visit} (hv : v ∈ s.visits remaining stack all n d) :
    v.stack.depth < stack.depth + remaining := by
  induction remaining generalizing stack all n d with
  | zero => exact nomatch hv
  | succ remaining ih =>
    rw [visits_succ, List.mem_flatMap] at hv
    obtain ⟨t, -, hv⟩ := hv
    rcases List.mem_cons.1 hv with rfl | hv
    · exact Nat.lt_add_of_pos_right (Nat.succ_pos remaining)
    · obtain ⟨a, -, hv⟩ := List.mem_flatMap.1 hv
      have hlt := ih hv
      rw [Stack.depth_push] at hlt
      omega

end Dispatcher

theorem DispatchTable.isSome_slots_build (factories : List Factory) (k : Kind) :
    ((build factories).slots[k.index]?).isSome := by
  simp [build, Kind.getElem?_all_index]

end Scribe
