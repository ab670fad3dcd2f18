import Scribe.Proofs.Java.File
import Scribe.Proofs.Render.Handle

/-!
What rendering may change in a session: names are loaded and short names are claimed, and none is
ever taken back. A file that sets the package gives it back before it ends, so the package is the
same again after every node.
-/
namespace Scribe

namespace Dependencies

/-- Dependencies that may have come of others: nothing has been lost, and what has been loaded since
is not ignored and has its short name to itself. -/
structure Grows (d e : Dependencies) : Prop where
  ignored : e.ignored = d.ignored
  package : e.package = d.package
  loaded : ∀ name ∈ d.loaded, name ∈ e.loaded
  owner : ∀ short owner, d.owner? short = some owner → e.owner? short = some owner
  new : ∀ name ∈ e.loaded, name ∉ d.loaded →
    d.ignores name = false ∧ e.owner? (Name.short name) = some name

namespace Grows

variable {d e e' : Dependencies}

theorem refl (d : Dependencies) : d.Grows d where
  ignored := rfl
  package := rfl
  loaded _ h := h
  owner _ _ h := h
  new _ h hnew := absurd h hnew

theorem trans (h : d.Grows e) (h' : e.Grows e') : d.Grows e' where
  ignored := h'.ignored.trans h.ignored
  package := h'.package.trans h.package
  loaded name hname := h'.loaded name (h.loaded name hname)
  owner short owner ho := h'.owner short owner (h.owner short owner ho)
  new name hname hnew := by
    by_cases hbetween : name ∈ e.loaded
    · obtain ⟨hignored, howner⟩ := h.new name hbetween hnew
      exact ⟨hignored, h'.owner _ _ howner⟩
    · obtain ⟨hignored, howner⟩ := h'.new name hname hbetween
      refine ⟨?_, howner⟩
      rw [ignores, ← h.ignored]
      exact hignored

theorem step (h : Step d e) : d.Grows e where
  ignored := ignored_step h
  package := package_step h
  loaded _ := mem_loaded_step h
  owner _ _ := owner?_step h
  new name hname hnew := by
    cases h with
    | reserve other =>
      rw [loaded_reserve] at hname
      exact absurd hname hnew
    | load other ignored _ free =>
      obtain rfl := (mem_loaded_load.1 hname).resolve_right hnew
      refine ⟨ignored, ?_⟩
      rw [owner?_load_of_not_loaded (by simpa [isLoaded] using hnew)]
      cases ho : d.owner? (Name.short name) with
      | none => simp
      | some owner => simp [conflicts_eq_false_iff.1 free owner ho]

theorem steps (h : Steps d e) : d.Grows e := by
  induction h with
  | refl => exact .refl d
  | tail _ hstep ih => exact ih.trans (.step hstep)

theorem of_package {package : Option String} (h : { d with package }.Grows e) :
    d.Grows { e with package := d.package } :=
  ⟨h.ignored, rfl, h.loaded, h.owner, h.new⟩

end Grows

end Dependencies

theorem Binding.renderAll_handle (b : Binding) (d : Dependencies) (f : Format) (maxDepth : Nat)
    (stack : Stack) (n : Node) :
    ((Handle.mk (b.session d f maxDepth) stack).renderAll n).2 =
      ((Handle.mk (b.session d f maxDepth) stack).render n).2 := by
  unfold Handle.renderAll Handle.render Handle.children
  cases (Handle.mk (b.session d f maxDepth) stack).remaining with
  | zero => rfl
  | succ remaining => exact congrArg (b.session · f maxDepth) (b.dispatchAll_snd f remaining stack n d)

namespace Java

theorem grows_first (f : Format) (remaining : Nat) (stack : Stack) (n : Node) (d : Dependencies) :
    d.Grows (((dispatcher f).children remaining stack).first n d).2 := by
  by_cases hfile : n.kind = .file
  · obtain ⟨x, place, rfl⟩ := eq_file_of_kind hfile
    cases remaining with
    | zero => exact .refl d
    | succ remaining =>
      have hsteps := steps_settled f remaining stack x place d
      rw [Dependencies.enter_eq] at hsteps
      rw [dependencies_file]
      exact (Dependencies.Grows.steps hsteps).of_package
  · exact .steps (chain_visits remaining stack n d hfile).steps

/-- Whichever way a node is rendered, at the root or within other nodes, to a text or to nothing:
afterwards the session is as it was, but for dependencies that may have grown. -/
theorem rendering_grows (d : Dependencies) (f : Format) (maxDepth : Nat) (stack : Stack)
    (n : Node) :
    let h : Handle := ⟨binding.session d f maxDepth, stack⟩
    ∃ e, d.Grows e
      ∧ (h.render n).2 = binding.session e f maxDepth
      ∧ (h.renderWithProvenance n).2 = binding.session e f maxDepth
      ∧ (h.renderAll n).2 = binding.session e f maxDepth := by
  intro h
  have hprovenance : (h.renderWithProvenance n).2 = (h.render n).2 :=
    (congrArg Prod.snd (h.render_eq n)).symm
  rw [hprovenance, binding.renderAll_handle]
  exact ⟨_, grows_first f h.remaining stack n d, rfl, rfl, rfl⟩

end Java

end Scribe
