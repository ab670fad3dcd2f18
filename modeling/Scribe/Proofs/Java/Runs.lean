import Scribe.Proofs.Java.Chain

/-!
Runs: what a script gives and what it does to the dependencies, as a function of the dependencies it
meets. A property of runs that references and imports have, and that one run after another has if
both of them do, belongs to the rendering of every node that is no file.
-/
namespace Scribe

/-- A property that doing nothing has, and that passes to one run after another. -/
structure Sequential (P : ∀ {α : Type}, (Dependencies → α × Dependencies) → Prop) : Prop where
  pure {α : Type} (a : α) : P fun d => (a, d)
  bind {α β : Type} {run : Dependencies → α × Dependencies}
    {next : α → Dependencies → β × Dependencies} (hrun : P run) (hnext : ∀ a, P (next a)) :
    P fun d => next (run d).1 (run d).2

namespace Sequential

variable {P : ∀ {α : Type}, (Dependencies → α × Dependencies) → Prop} (hP : Sequential P)

include hP

theorem map {run : Dependencies → α × Dependencies} (hrun : P run) (g : α → β) :
    P fun d => (g (run d).1, (run d).2) :=
  hP.bind hrun fun a => hP.pure (g a)

theorem run_bind {c : Children} {s : Script α} {k : α → Script β} (hs : P (s.run c))
    (hk : ∀ a, P ((k a).run c)) : P ((s >>= k).run c) := by
  rw [show (s >>= k).run c = _ from funext (Script.run_monadBind c s k)]
  exact hP.bind hs hk

theorem run_quiet {c : Children} {p : Item → Prop} {s : Script α} (hs : Script.Quiet p s)
    (hc : ∀ m, p m.item → P (c.first m)) : P (s.run c) := by
  induction hs with
  | done a => exact hP.pure a
  | first m next inner _ _ ih => exact hP.bind (hc m inner) ih

end Sequential

namespace Java

open Script

theorem first_succ (f : Format) (remaining : Nat) (stack : Stack) (n : Node) :
    ((dispatcher f).children (remaining + 1) stack).first n = fun d =>
      (((script ⟨f, stack.push n⟩ n).run (below f remaining stack n) d).1.map
          (binding.rendered stack n),
        ((script ⟨f, stack.push n⟩ n).run (below f remaining stack n) d).2) :=
  funext fun d => binding.first_succ f remaining stack n d

/-- Such a property holds of rendering any item of a sort that is closed under going inwards, if it
holds of writing a name and of the imports of that sort. -/
theorem sequential_first {P : ∀ {α : Type}, (Dependencies → α × Dependencies) → Prop}
    (hP : Sequential P) {q : Item → Prop} (hfile : ∀ x, ¬ q (.file x))
    (hinside : ∀ {i m}, q i → i.Holds m → q m)
    (hname : ∀ name, P fun d => (d.spelling name, d.refer name))
    (himport : ∀ i, q (.importDecl i) → ∀ c, P ((renderImport i).run c))
    (f : Format) (remaining : Nat) (stack : Stack) (n : Node) (h : q n.item) :
    P (((dispatcher f).children remaining stack).first n) := by
  induction remaining generalizing stack n with
  | zero => exact hP.pure none
  | succ remaining ih =>
    have hquiet {s : Script (Option String)} (hs : Quiet n.item.Holds s) :
        P (s.run (below f remaining stack n)) :=
      hP.run_quiet hs fun m hm => ih _ m (hinside h hm)
    rw [first_succ]
    apply hP.map
    obtain ⟨item, place⟩ := n
    cases item with
    | file x => exact absurd h (hfile x)
    | importDecl i => exact himport i h _
    | type t =>
      rw [script_type]
      apply hP.run_bind
      · rw [show (typeName t.name).run _ = _ from funext (run_typeName _ t.name)]
        exact hname t.name
      · intro name
        exact hquiet (quiet_renderTail t place name)
    | value v =>
      apply hquiet
      apply quiet_script <;> cases v <;> nofun
    | _ => exact hquiet (quiet_script _ _ nofun nofun nofun)

end Java

end Scribe
