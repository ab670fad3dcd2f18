import Scribe.Proofs.Java.Complete
import Scribe.Proofs.Render.Fallback

/-!
Factories behind the Java factory. Of a node that Java renders with all that belongs to it they
change nothing, whatever they register.
-/
namespace Scribe.Java

theorem onlyFirst (d : Dependencies) (f : Format) (maxDepth : Nat) (n : Node) :
    ∀ v ∈ (binding.session d f maxDepth).visits n, ∀ a ∈ v.asks, a.all = false := by
  cases hmarkup : n.kind.isMarkup with
  | false => exact complete.onlyFirst hmarkup
  | true =>
    intro v hv
    obtain ⟨remaining, rfl⟩ : ∃ remaining, maxDepth = remaining + 1 := by
      cases maxDepth with
      | zero => exact nomatch hv
      | succ remaining => exact ⟨remaining, rfl⟩
    have hnone : binding.transform? n.kind = none := by
      cases hkind : n.kind with
      | document | declaration | tag | tagAttribute | text => rfl
      | _ => exact nomatch hkind ▸ hmarkup
    rw [Generator.visits] at hv
    exact nomatch binding.visits_of_none f remaining {} n d hnone false ▸ hv

/-- A factory that is added after the Java factory overrides nothing: where Java gives each node
that is dispatched its text, the text and the state of the session are those of Java alone, and so
are the runs, each of them one of Java's own transforms. -/
theorem render_behind (later : Factory) (d : Dependencies) (f : Format) (maxDepth : Nat) (n : Node)
    (h : (binding.session d f maxDepth).Answered n) :
    let alone := binding.session d f maxDepth
    let both := alone.withFactory later
    both.render n = ((alone.render n).1, (alone.render n).2.withFactory later)
      ∧ both.visits n = alone.visits n
      ∧ ∀ v ∈ both.visits n,
        v.candidate.factory = factory ∧ transform? v.node.kind = some v.candidate.transform := by
  intro alone both
  have hupToDate : alone.UpToDate := rfl
  obtain ⟨hrender, hvisits⟩ := hupToDate.render_withFactory later (onlyFirst d f maxDepth n) h
  refine ⟨hrender, hvisits, fun v hv => ?_⟩
  rw [hvisits] at hv
  exact Binding.candidate_of_mem_visits (b := binding) hv

def ledger : File where
  name := "com/acme/Ledger.java"
  classes := [.classDecl
    { name := "Ledger"
      fields := [
        { name := "rows"
          type := { name := "java.util.List", arguments := [.type (.ofName "long")] } }]
      methods := [
        { name := "add", type := .ofName "void"
          fields := [{ name := "row", type := .ofName "long" }] }] }]

def loud : Factory :=
  .install { name := "loud" } .any { name := "Loud", script := fun _ _ => pure (some "!") }

theorem render_behind_ledger :
    let alone := binding.session dependencies {} 8
    let n : Node := ⟨.file ledger, []⟩
    alone.Answered n
      ∧ ((alone.withFactory loud).render n).1 = some
        ("package com.acme;\n\nimport java.util.List;\n\n"
          ++ "class Ledger \x7b\n    List<long> rows;\n\n    void add(long row) \x7b\x7d\n\x7d\n") := by
  intro alone n
  have h : alone.Answered n := ⟨by decide +kernel, by decide +kernel⟩
  refine ⟨h, ?_⟩
  rw [(render_behind loud dependencies {} 8 n h).1]
  decide +kernel

end Scribe.Java
