import Scribe.Proofs.Render.Trace

/-!
Nodes rendered one by one. Rendering a node changes the session, so it can be told afterwards which
nodes of a list have been rendered: those up to the one that gave the last text asked for, and all
of them once no text is left.
-/
namespace Scribe

/-! One node after another. -/

section

variable {σ : Type} (render : σ → Node → Option String × σ)

def inOrder (s : σ) : List Node → List String × σ
  | [] => ([], s)
  | n :: ns =>
    let (text, s) := render s n
    let (texts, s) := inOrder s ns
    (text.toList ++ texts, s)

theorem inOrder_append (s : σ) (ns ms : List Node) :
    inOrder render s (ns ++ ms) =
      ((inOrder render s ns).1 ++ (inOrder render (inOrder render s ns).2 ms).1,
        (inOrder render (inOrder render s ns).2 ms).2) := by
  induction ns generalizing s with
  | nil => rfl
  | cons n ns ih => simp only [List.cons_append, inOrder, ih, List.append_assoc]

/-- The shortest prefix of a list that gives `k` texts, with the nodes after it; where there are not
so many texts it is the whole list. -/
structure Shortest (s : σ) (ns : List Node) (k : Nat) (before after : List Node) : Prop where
  split : ns = before ++ after
  enough : (inOrder render s before).1.length = k
    ∨ (inOrder render s before).1.length < k ∧ after = []
  shorter : ∀ ms, ms <+: before → ms ≠ before → (inOrder render s ms).1.length < k

namespace Shortest

variable {render} {s : σ} {ns before after : List Node} {n : Node} {k : Nat}

theorem zero : Shortest render s ns 0 [] ns :=
  ⟨rfl, .inl rfl, fun _ hms hne => absurd (List.prefix_nil.1 hms) hne⟩

theorem nil : Shortest render s [] k [] [] := by
  refine ⟨rfl, ?_, fun _ hms hne => absurd (List.prefix_nil.1 hms) hne⟩
  exact (Nat.eq_zero_or_pos k).imp Eq.symm (⟨·, rfl⟩)

theorem cons (h : Shortest render (render s n).2 ns k before after) (j : Nat)
    (hj : j = (render s n).1.toList.length + k) (hpos : 0 < j) :
    Shortest render s (n :: ns) j (n :: before) after := by
  have hlength (ms : List Node) : (inOrder render s (n :: ms)).1.length =
      (render s n).1.toList.length + (inOrder render (render s n).2 ms).1.length :=
    List.length_append
  refine ⟨congrArg (n :: ·) h.split, ?_, fun ms hms hne => ?_⟩
  · rw [hlength]
    exact h.enough.imp (by omega) fun ⟨hlt, hafter⟩ => ⟨by omega, hafter⟩
  · cases ms with
    | nil => exact hpos
    | cons m ms =>
      obtain ⟨rfl, hprefix⟩ := List.cons_prefix_cons.1 hms
      have hlt := h.shorter ms hprefix fun heq => hne (heq ▸ rfl)
      rw [hlength]
      omega

theorem texts_eq (h : Shortest render s ns k before after) :
    (inOrder render s before).1 = (inOrder render s ns).1.take k := by
  rw [h.split, inOrder_append]
  rcases h.enough with hlength | ⟨hlt, rfl⟩
  · rw [← hlength, List.take_left]
  · rw [inOrder, List.append_nil, List.take_of_length_le (Nat.le_of_lt hlt)]

theorem eq_of_lt (h : Shortest render s ns k before after)
    (hlt : (inOrder render s ns).1.length < k) : before = ns ∧ after = [] := by
  have hafter : after = [] := by
    refine h.enough.elim (fun hlength => ?_) And.right
    have htake : (inOrder render s before).1.length ≤ (inOrder render s ns).1.length := by
      rw [h.texts_eq, List.length_take]
      exact Nat.min_le_right _ _
    omega
  rw [h.split, hafter, List.append_nil]
  exact ⟨rfl, rfl⟩

end Shortest

end

namespace Rendering

variable {g : Generator} {n : Node} {ns : List Node} {r r' : Rendering} {text : String}

theorem nextOf_cons (g : Generator) (n : Node) (ns : List Node) :
    nextOf g (n :: ns) =
      match (g.render n).1 with
      | some text => (some text, ⟨(g.render n).2, ns⟩)
      | none => nextOf (g.render n).2 ns := by
  rw [nextOf]
  rcases g.render n with ⟨text, g'⟩
  cases text <;> rfl

theorem next_of_next_none (h : r.next = (none, r')) : r'.pending = [] ∧ r'.next = (none, r') := by
  obtain ⟨g, ns⟩ := r
  change nextOf g ns = _ at h
  induction ns generalizing g with
  | nil =>
    obtain rfl := congrArg Prod.snd h
    exact ⟨rfl, rfl⟩
  | cons n ns ih =>
    rw [nextOf_cons] at h
    cases htext : (g.render n).1 with
    | some text =>
      rw [htext] at h
      exact nomatch congrArg Prod.fst h
    | none =>
      rw [htext] at h
      exact ih _ h

theorem next_cons_of_none (h : (g.render n).1 = none) :
    next ⟨g, n :: ns⟩ = next ⟨(g.render n).2, ns⟩ := by
  change nextOf g (n :: ns) = nextOf _ ns
  rw [nextOf_cons, h]

theorem next_cons_of_some (h : (g.render n).1 = some text) :
    next ⟨g, n :: ns⟩ = (some text, ⟨(g.render n).2, ns⟩) := by
  change nextOf g (n :: ns) = _
  rw [nextOf_cons, h]

theorem take_succ (r : Rendering) (k : Nat) :
    r.take (k + 1) =
      match r.next with
      | (none, r') => ([], r')
      | (some text, r') => (text :: (r'.take k).1, (r'.take k).2) := rfl

theorem take_cons_of_none (h : (g.render n).1 = none) (k : Nat) :
    take (k + 1) ⟨g, n :: ns⟩ = take (k + 1) ⟨(g.render n).2, ns⟩ := by
  rw [take_succ, take_succ, next_cons_of_none h]

theorem take_cons_of_some (h : (g.render n).1 = some text) (k : Nat) :
    take (k + 1) ⟨g, n :: ns⟩ =
      (text :: (take k ⟨(g.render n).2, ns⟩).1, (take k ⟨(g.render n).2, ns⟩).2) := by
  rw [take_succ, next_cons_of_some h]

/-- No node is rendered after the one that gives the last text wanted. -/
theorem exists_shortest (g : Generator) (ns : List Node) (k : Nat) : ∃ before after,
    Shortest Generator.render g ns k before after
      ∧ take k ⟨g, ns⟩ = ((inOrder Generator.render g before).1,
        ⟨(inOrder Generator.render g before).2, after⟩) := by
  induction ns generalizing g k with
  | nil => cases k <;> exact ⟨[], [], .nil, rfl⟩
  | cons n ns ih =>
    cases k with
    | zero => exact ⟨[], n :: ns, .zero, rfl⟩
    | succ k =>
      cases htext : (g.render n).1 with
      | none =>
        obtain ⟨before, after, hshortest, htake⟩ := ih (g.render n).2 (k + 1)
        refine ⟨n :: before, after, hshortest.cons (k + 1) ?_ (Nat.succ_pos k), ?_⟩
        · rw [htext]
          exact (Nat.zero_add _).symm
        · rw [take_cons_of_none htext, htake]
          simp only [inOrder, htext, Option.toList_none, List.nil_append]
      | some text =>
        obtain ⟨before, after, hshortest, htake⟩ := ih (g.render n).2 k
        refine ⟨n :: before, after, hshortest.cons (k + 1) ?_ (Nat.succ_pos k), ?_⟩
        · rw [htext]
          exact Nat.add_comm _ _
        · rw [take_cons_of_some htext, htake]
          simp only [inOrder, htext, Option.toList_some, List.singleton_append]

/-- Texts are asked for until none comes. -/
inductive Exhausts : Rendering → List String → Rendering → Prop
  | done {r r' : Rendering} (h : r.next = (none, r')) : Exhausts r [] r'
  | text {r r' r'' : Rendering} {text : String} {texts : List String}
    (h : r.next = (some text, r')) (rest : Exhausts r' texts r'') : Exhausts r (text :: texts) r''

theorem Exhausts.of_next_eq {r s t : Rendering} {texts : List String} (hnext : r.next = s.next)
    (h : Exhausts s texts t) : Exhausts r texts t := by
  cases h with
  | done h => exact .done (hnext.trans h)
  | text h rest => exact .text (hnext.trans h) rest

theorem exhausts_inOrder (g : Generator) (ns : List Node) :
    Exhausts ⟨g, ns⟩ (inOrder Generator.render g ns).1 ⟨(inOrder Generator.render g ns).2, []⟩ := by
  induction ns generalizing g with
  | nil => exact .done rfl
  | cons n ns ih =>
    cases htext : (g.render n).1 with
    | some text =>
      simp only [inOrder, htext, Option.toList_some, List.singleton_append]
      exact .text (next_cons_of_some htext) (ih _)
    | none =>
      simp only [inOrder, htext, Option.toList_none, List.nil_append]
      exact .of_next_eq (next_cons_of_none htext) (ih _)

theorem Exhausts.unique {r s s' : Rendering} {texts texts' : List String} (h : Exhausts r texts s)
    (h' : Exhausts r texts' s') : texts' = texts ∧ s' = s := by
  induction h generalizing texts' s' with
  | done h =>
    cases h' with
    | done h' => exact ⟨rfl, congrArg Prod.snd (h'.symm.trans h)⟩
    | text h' => exact nomatch congrArg Prod.fst (h'.symm.trans h)
  | text h rest ih =>
    cases h' with
    | done h' => exact nomatch congrArg Prod.fst (h'.symm.trans h)
    | text h' rest' =>
      obtain ⟨htext, rfl⟩ := Prod.mk.inj (h'.symm.trans h)
      obtain ⟨rfl, rfl⟩ := ih rest'
      exact ⟨congrArg (· :: _) (Option.some.inj htext), rfl⟩

end Rendering

/-- At most `k` texts of the nodes of a list are the first `k` that the nodes give when they are
rendered in order, and leave the session as the shortest prefix that gives them does. Asking until
no text comes is rendering all nodes in order; from then on nothing comes and nothing changes. -/
theorem take_renderEach (g : Generator) (ns : List Node) :
    let rendered := inOrder Generator.render g
    (∀ k, ∃ before after, Shortest Generator.render g ns k before after
      ∧ (g.renderEach ns).take k = ((rendered ns).1.take k, ⟨(rendered before).2, after⟩)
      ∧ ((rendered ns).1.length < k → before = ns))
    ∧ (∀ texts r, (g.renderEach ns).Exhausts texts r ↔
        texts = (rendered ns).1 ∧ r = ⟨(rendered ns).2, []⟩)
    ∧ ∀ r r' : Rendering, r.next = (none, r') →
        r'.next = (none, r') ∧ ∀ k, r'.take k = ([], r') := by
  intro rendered
  refine ⟨fun k => ?_, fun texts r => ⟨fun h => ?_, ?_⟩, fun r r' h => ?_⟩
  · obtain ⟨before, after, hshortest, htake⟩ := Rendering.exists_shortest g ns k
    refine ⟨before, after, hshortest, ?_, fun hlt => (hshortest.eq_of_lt hlt).1⟩
    rw [← hshortest.texts_eq]
    exact htake
  · exact (Rendering.exhausts_inOrder g ns).unique h
  · rintro ⟨rfl, rfl⟩
    exact Rendering.exhausts_inOrder g ns
  · obtain ⟨-, hnext⟩ := Rendering.next_of_next_none h
    refine ⟨hnext, fun k => ?_⟩
    cases k with
    | zero => rfl
    | succ k => rw [Rendering.take_succ, hnext]

end Scribe
