import Scribe.Proofs.Render.Binding
import Scribe.Render.Overflow
import Mathlib.Data.List.MinMax
import Mathlib.Order.Nat

/-!
The depth limit. Without a limit a node puts only so many nodes on the stack at once, and a limit
that is no lower than this number makes no difference: the same transforms run, from the same
dependencies and with the same results. If besides a transform gives text whenever its children do,
then nothing is left out.
-/
namespace Scribe

namespace Script

variable {c c' : Children} {d : Dependencies}

/-- A run depends only on the answers to what is asked in it. -/
theorem run_congr {s : Script α}
    (h : ∀ a ∈ s.asks c d, a.all = false ∧ c'.first a.node a.before = c.first a.node a.before) :
    s.run c' d = s.run c d ∧ s.asks c' d = s.asks c d := by
  induction s generalizing d with
  | done a => exact ⟨rfl, rfl⟩
  | getDeps next ih => exact ih d h
  | putDeps e next ih => exact ih h
  | first n next ih =>
    have hfirst : c'.first n d = c.first n d := (h _ List.mem_cons_self).2
    have hrest := ih (c.first n d).1 fun a ha => h a (List.mem_cons_of_mem _ ha)
    simp only [run, asks, hfirst, hrest, and_self]
  | every n next _ =>
    have hnone : true = false := (h _ List.mem_cons_self).1
    exact absurd hnone (by decide)

theorem texts_of_mem_asks {s : Script α} {a : Ask} (ha : a ∈ s.asks c d) (hall : a.all = false) :
    a.texts = ((c.first a.node a.before).1.map (·.text)).toList := by
  induction s generalizing d with
  | done => exact nomatch ha
  | getDeps next ih => exact ih d ha
  | putDeps e next ih => exact ih ha
  | first n next ih =>
    rcases List.mem_cons.1 ha with rfl | ha
    · rfl
    · exact ih _ ha
  | every n next ih =>
    rcases List.mem_cons.1 ha with rfl | ha
    · exact nomatch hall
    · exact ih _ ha

end Script

/-! Heights. -/

/-- The greatest number of nodes on the stack at once. -/
def peak (vs : List Visit) : Nat := (vs.map (·.stack.depth + 1)).foldr max 0

theorem lt_peak {vs : List Visit} {v : Visit} (h : v ∈ vs) : v.stack.depth < peak vs := by
  have hmem := List.mem_map_of_mem (f := fun v : Visit => v.stack.depth + 1) h
  exact List.le_max_of_le' 0 hmem (Nat.le_refl _)

theorem peak_le {vs : List Visit} {height : Nat} (h : ∀ v ∈ vs, v.stack.depth < height) :
    peak vs ≤ height := by
  refine List.max_le_of_forall_le _ height fun k hk => ?_
  obtain ⟨v, hv, rfl⟩ := List.mem_map.1 hk
  exact h v hv

/-- The number of nodes that are on the stack at once when a node is rendered without a limit, which
is to say with any that is great enough, as if nothing broke off. -/
def Generator.HasHeight (g : Generator) (n : Node) (height : Nat) : Prop :=
  ∃ limit, ∀ maxDepth ≥ limit, peak ((g.withMaxDepth maxDepth).visits n) = height

/-- Nothing is lost when a node is rendered: the rendering does not break off, it gives text, and so
does all that is rendered for the node, unless excused, and a higher limit makes no difference. -/
structure Generator.Whole (excused : Stack → Node → Dependencies → Prop) (g : Generator)
    (n : Node) : Prop where
  unbroken : ∀ maxDepth ≥ g.maxDepth, ¬ (g.withMaxDepth maxDepth).overflows n
  text : (g.render n).1 = none ↔ excused {} n g.dependencies
  children : ∀ v ∈ g.visits n, ∀ a ∈ v.asks,
    (a.texts = [] ↔ excused (v.stack.push v.node) a.node a.before)
  larger : ∀ maxDepth ≥ g.maxDepth,
    ((g.withMaxDepth maxDepth).render n).1 = (g.render n).1
      ∧ ((g.withMaxDepth maxDepth).render n).2.dependencies = (g.render n).2.dependencies

namespace Binding

variable {b : Binding} {f : Format} {remaining : Nat} {stack : Stack} {n : Node} {d : Dependencies}

structure Alike (b : Binding) (f : Format) (stack : Stack) (n : Node) (d : Dependencies)
    (limit limit' : Nat) : Prop where
  first : ((b.dispatcher f).children limit stack).first n d =
    ((b.dispatcher f).children limit' stack).first n d
  visits : (b.dispatcher f).visits limit stack false n d =
    (b.dispatcher f).visits limit' stack false n d

namespace Alike

theorem symm {limit limit' : Nat} (h : b.Alike f stack n d limit limit') :
    b.Alike f stack n d limit' limit :=
  ⟨h.first.symm, h.visits.symm⟩

theorem trans {k l m : Nat} (h : b.Alike f stack n d k l) (h' : b.Alike f stack n d l m) :
    b.Alike f stack n d k m :=
  ⟨h.first.trans h'.first, h.visits.trans h'.visits⟩

theorem of_none {limit limit' : Nat} (h : b.transform? n.kind = none) :
    b.Alike f stack n d limit limit' := by
  have hzero (limit : Nat) : b.Alike f stack n d limit 0 := by
    cases limit with
    | zero => exact ⟨rfl, rfl⟩
    | succ limit =>
      constructor
      · rw [first_succ, script, h]
        rfl
      · exact b.visits_of_none f limit stack n d h false
  exact (hzero limit).trans (hzero limit').symm

theorem succ {limit limit' : Nat}
    (h : ∀ a ∈ (b.script ⟨f, stack.push n⟩ n).asks (b.below f limit' stack n) d,
      a.all = false ∧ b.Alike f (stack.push n) a.node a.before limit limit') :
    b.Alike f stack n d (limit + 1) (limit' + 1) := by
  cases ht : b.transform? n.kind with
  | none => exact of_none ht
  | some t =>
    obtain ⟨hrun, hasks⟩ := Script.run_congr fun a ha => ⟨(h a ha).1, (h a ha).2.first⟩
    constructor
    · rw [first_succ, first_succ, hrun]
    · rw [b.visits_of_transform _ _ _ _ _ ht, b.visits_of_transform _ _ _ _ _ ht]
      unfold ownVisit
      rw [hrun, hasks]
      congr 1
      apply List.flatMap_congr
      intro a ha
      rw [(h a ha).1, (h a ha).2.visits]

end Alike

/-- For items of a sort, the scripts of a binding ask for lower children of that sort, and give no
text exactly where this is excused, if that is so for the children. -/
structure Complete (b : Binding) (sort : Item → Prop) (rank : Item → Nat)
    (excused : Stack → Node → Dependencies → Prop) : Prop where
  asks {f : Format} {remaining : Nat} {stack : Stack} {n : Node} {d : Dependencies} {a : Ask}
    (h : sort n.item)
    (ha : a ∈ (b.script ⟨f, stack.push n⟩ n).asks (b.below f remaining stack n) d) :
    a.all = false ∧ sort a.node.item ∧ rank a.node.item < rank n.item
  text {f : Format} {remaining : Nat} {stack : Stack} {n : Node} {d : Dependencies}
    (h : sort n.item)
    (hasks : ∀ a ∈ (b.script ⟨f, stack.push n⟩ n).asks (b.below f remaining stack n) d,
      a.texts = [] ↔ excused (stack.push n) a.node a.before) :
    ((b.script ⟨f, stack.push n⟩ n).run (b.below f remaining stack n) d).1 = none ↔
      excused stack n d

namespace Complete

variable {sort : Item → Prop} {rank : Item → Nat} {excused : Stack → Node → Dependencies → Prop}
  (hb : b.Complete sort rank excused)

include hb

theorem alike_of_lt {limit : Nat} (h : sort n.item) (hle : limit ≤ remaining)
    (hdepth : ∀ v ∈ (b.dispatcher f).visits remaining stack false n d,
      v.stack.depth < stack.depth + limit) : b.Alike f stack n d limit remaining := by
  induction limit generalizing remaining stack n d with
  | zero =>
    cases ht : b.transform? n.kind with
    | none => exact .of_none ht
    | some t =>
      cases remaining with
      | zero => exact ⟨rfl, rfl⟩
      | succ remaining =>
        have hlt := hdepth _ (mem_visits_succ.2 (.inl ⟨t, ht, rfl⟩))
        exact absurd hlt (Nat.lt_irrefl _)
  | succ limit ih =>
    obtain ⟨remaining, rfl⟩ : ∃ r, remaining = r + 1 := ⟨remaining - 1, by omega⟩
    apply Alike.succ
    intro a ha
    obtain ⟨hall, hsort, -⟩ := hb.asks h ha
    refine ⟨hall, ih hsort (by omega) fun v hv => ?_⟩
    have hlt := hdepth v (mem_visits_succ.2 (.inr ⟨a, ha, hall ▸ hv⟩))
    rw [Stack.depth_push]
    omega

theorem alike_of_succ_lt {limit : Nat} (h : sort n.item) (hle : limit ≤ remaining)
    (hpos : 0 < limit)
    (hdepth : ∀ v ∈ (b.dispatcher f).visits limit stack false n d,
      v.stack.depth + 1 < stack.depth + limit) : b.Alike f stack n d remaining limit := by
  induction limit generalizing remaining stack n d with
  | zero => exact absurd hpos (Nat.lt_irrefl 0)
  | succ limit ih =>
    cases ht : b.transform? n.kind with
    | none => exact .of_none ht
    | some t =>
      have hown : stack.depth + 1 < stack.depth + (limit + 1) :=
        hdepth _ (mem_visits_succ.2 (.inl ⟨t, ht, rfl⟩))
      obtain ⟨remaining, rfl⟩ : ∃ r, remaining = r + 1 := ⟨remaining - 1, by omega⟩
      apply Alike.succ
      intro a ha
      obtain ⟨hall, hsort, -⟩ := hb.asks h ha
      refine ⟨hall, ih hsort (by omega) (by omega) fun v hv => ?_⟩
      have hlt := hdepth v (mem_visits_succ.2 (.inr ⟨a, ha, hall ▸ hv⟩))
      rw [Stack.depth_push]
      omega

theorem depth_le (h : sort n.item) {v : Visit}
    (hv : v ∈ (b.dispatcher f).visits remaining stack false n d) :
    v.stack.depth ≤ stack.depth + rank n.item := by
  induction remaining generalizing stack n d with
  | zero => exact nomatch hv
  | succ remaining ih =>
    rcases mem_visits_succ.1 hv with ⟨t, -, rfl⟩ | ⟨a, ha, hv⟩
    · exact Nat.le_add_right _ _
    · obtain ⟨hall, hsort, hrank⟩ := hb.asks h ha
      rw [hall] at hv
      have hle := ih hsort hv
      rw [Stack.depth_push] at hle
      omega

/-- Within a great enough limit only what is excused gives no text. -/
theorem first_eq_none_iff (h : sort n.item) (hlt : rank n.item < remaining) :
    (((b.dispatcher f).children remaining stack).first n d).1 = none ↔ excused stack n d := by
  induction remaining generalizing stack n d with
  | zero => exact absurd hlt (Nat.not_lt_zero _)
  | succ remaining ih =>
    rw [first_succ, Option.map_eq_none_iff]
    apply hb.text h
    intro a ha
    obtain ⟨hall, hsort, hrank⟩ := hb.asks h ha
    rw [Script.texts_of_mem_asks ha hall, Option.toList_eq_nil_iff, Option.map_eq_none_iff]
    exact ih hsort (by omega)

theorem texts_eq_nil_iff (h : sort n.item) (hlt : rank n.item < remaining) {v : Visit}
    (hv : v ∈ (b.dispatcher f).visits remaining stack false n d) {a : Ask} (ha : a ∈ v.asks) :
    a.texts = [] ↔ excused (v.stack.push v.node) a.node a.before := by
  induction remaining generalizing stack n d with
  | zero => exact nomatch hv
  | succ remaining ih =>
    rcases mem_visits_succ.1 hv with ⟨t, -, rfl⟩ | ⟨a', ha', hv⟩
    · obtain ⟨hall, hsort, hrank⟩ := hb.asks h ha
      rw [Script.texts_of_mem_asks ha hall, Option.toList_eq_nil_iff, Option.map_eq_none_iff]
      exact hb.first_eq_none_iff hsort (by omega)
    · obtain ⟨hall, hsort, hrank⟩ := hb.asks h ha'
      rw [hall] at hv
      exact ih hsort (by omega) hv

/-! Sessions. -/

theorem hasHeight_of_peak_lt (h : sort n.item) {limit : Nat}
    (hpeak : peak ((b.dispatcher f).visits limit {} false n d) < limit) (maxDepth : Nat) :
    (b.session d f maxDepth).HasHeight n (peak ((b.dispatcher f).visits limit {} false n d)) := by
  have hdepth : ∀ v ∈ (b.dispatcher f).visits limit {} false n d,
      v.stack.depth + 1 < Stack.depth {} + limit := by
    intro v hv
    have hlt := lt_peak hv
    omega
  refine ⟨limit, fun maxDepth hle => congrArg peak ?_⟩
  exact (hb.alike_of_succ_lt h hle (by omega) hdepth).visits

theorem exists_height (h : sort n.item) (f : Format) (d : Dependencies) (maxDepth : Nat) :
    ∃ height, (b.session d f maxDepth).HasHeight n height := by
  have hpeak : peak ((b.dispatcher f).visits (rank n.item + 2) {} false n d) ≤ rank n.item + 1 := by
    apply peak_le
    intro v hv
    have hdepth := hb.depth_le h hv
    have hempty : Stack.depth {} = 0 := rfl
    omega
  exact ⟨_, hb.hasHeight_of_peak_lt h (Nat.lt_succ_of_le hpeak) maxDepth⟩

/-- From the height on, the limit makes no difference. -/
theorem alike_of_height {height limit maxDepth : Nat} (h : sort n.item)
    (hheight : (b.session d f maxDepth).HasHeight n height) (hlimit : height ≤ limit)
    (hle : limit ≤ remaining) : b.Alike f {} n d limit remaining := by
  obtain ⟨bound, hbound⟩ := hheight
  -- both limits are compared with one that is great enough for the height to show
  let far := max bound remaining
  have hpeak : peak ((b.dispatcher f).visits far {} false n d) = height :=
    hbound far (Nat.le_max_left _ _)
  have hdepth (low : Nat) (hlow : height ≤ low) :
      ∀ v ∈ (b.dispatcher f).visits far {} false n d, v.stack.depth < Stack.depth {} + low := by
    intro v hv
    have hlt := lt_peak hv
    omega
  have hfar : remaining ≤ far := Nat.le_max_right _ _
  have hlow := hb.alike_of_lt h (Nat.le_trans hle hfar) (hdepth limit hlimit)
  have hhigh := hb.alike_of_lt h hfar (hdepth remaining (Nat.le_trans hlimit hle))
  exact hlow.trans hhigh.symm

theorem whole {height maxDepth : Nat} (h : sort n.item)
    (hheight : (b.session d f maxDepth).HasHeight n height) {limit : Nat} (hlimit : height ≤ limit)
    (hunbroken : ∀ larger ≥ limit, ¬ (b.session d f larger).overflows n) :
    (b.session d f limit).Whole excused n := by
  have hle : limit ≤ max limit (rank n.item + 1) := Nat.le_max_left _ _
  have halike := hb.alike_of_height h hheight hlimit hle
  refine ⟨hunbroken, ?text, ?children, ?larger⟩
  case text =>
    rw [render_session, halike.first, Option.map_eq_none_iff]
    exact hb.first_eq_none_iff h (by omega)
  case children =>
    intro v hv a ha
    have hv : v ∈ (b.dispatcher f).visits limit {} false n d := hv
    rw [halike.visits] at hv
    exact hb.texts_eq_nil_iff h (by omega) hv ha
  case larger =>
    intro larger hlarger
    have hsame := hb.alike_of_height h hheight hlimit hlarger
    have hrender : ((b.session d f limit).withMaxDepth larger).render n = _ :=
      b.render_session f n d larger
    rw [hrender, render_session, hsame.first]
    exact ⟨rfl, rfl⟩

end Complete

end Binding

end Scribe
