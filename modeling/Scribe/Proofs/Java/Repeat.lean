import Scribe.Proofs.Java.Imports
import Scribe.Proofs.Java.Runs

/-!
Rendering twice. Once a node has been rendered, each name in it is settled: some name owns its short
form, and it is loaded if it is to be imported. So it is written the same way a second time, and
nothing is left to change.
-/
namespace Scribe

namespace Dependencies

variable {d e : Dependencies} {name : String}

theorem isSome_owner?_steps (hs : Steps d e) {short : String} (h : (d.owner? short).isSome) :
    (e.owner? short).isSome := by
  obtain ⟨owner, ho⟩ := Option.isSome_iff_exists.1 h
  rw [owner?_steps hs ho]
  rfl

theorem reserve_settled (hs : Steps (d.reserve name) e) : e.reserve name = e := by
  apply reserve_of_owned
  apply isSome_owner?_steps hs
  rw [owner?_reserve]
  simp

theorem conflicts_settled (h : d.Claimed) (hs : Steps (d.refer name) e) :
    e.conflicts name = d.conflicts name := by
  cases hconflicts : d.conflicts name with
  | true =>
    obtain ⟨owner, ho, hne⟩ := conflicts_eq_true_iff.1 hconflicts
    have howner := owner?_steps ((d.steps_refer name).trans hs) ho
    exact conflicts_eq_true_iff.2 ⟨owner, howner, hne⟩
  | false =>
    have howner := owner?_steps hs (owner?_refer_self h hconflicts)
    apply conflicts_eq_false_iff.2
    intro owner ho
    rw [howner] at ho
    exact (Option.some.inj ho).symm

theorem spelling_settled (h : d.Claimed) (hs : Steps (d.refer name) e) :
    e.spelling name = d.spelling name := by
  unfold spelling
  rw [conflicts_settled h hs]

theorem refer_settled (h : d.Claimed) (hs : Steps (d.refer name) e) : e.refer name = e := by
  have hsteps := (d.steps_refer name).trans hs
  unfold refer
  rw [conflicts_settled h hs, ignores_steps hsteps, isSamePackage_steps hsteps]
  cases hconflicts : d.conflicts name with
  | true => rfl
  | false =>
    have howner := owner?_steps hs (owner?_refer_self h hconflicts)
    cases hunwanted : d.ignores name || d.isSamePackage name with
    | true => exact reserve_of_owned (by rw [howner]; rfl)
    | false =>
      have hloaded := mem_loaded_refer_self hconflicts (by rw [wanted, hunwanted]; rfl)
      exact load_of_loaded (List.contains_iff_mem.2 (mem_loaded_steps hs hloaded))

theorem foldl_settled {op : Dependencies → String → Dependencies}
    (steps : ∀ d name, Steps d (op d name))
    (settled : ∀ {d e name}, d.Claimed → Steps (op d name) e → op e name = e)
    (h : d.Claimed) {names : List String} (hs : Steps (names.foldl op d) e) :
    names.foldl op e = e := by
  induction names generalizing d with
  | nil => rfl
  | cons name names ih =>
    have hrest := steps_foldl steps (op d name) names
    rw [List.foldl_cons, settled h (hrest.trans hs)]
    exact ih (h.steps (steps d name)) hs

/-- A run that writes the same again at any later moment, and then changes nothing. -/
def Stable (run : Dependencies → α × Dependencies) : Prop :=
  ∀ d, d.Claimed → Steps d (run d).2 ∧ ∀ e, Steps (run d).2 e → run e = ((run d).1, e)

theorem stable_of_fixed {run : Dependencies → α × Dependencies} (hfixed : ∀ d, (run d).2 = d)
    (hsame : ∀ d e, Steps d e → (run e).1 = (run d).1) : Stable run := by
  intro d _
  rw [hfixed]
  refine ⟨.refl, fun e hs => ?_⟩
  exact Prod.ext (hsame d e hs) (hfixed e)

theorem sequential_stable : Sequential Stable where
  pure a := stable_of_fixed (fun _ => rfl) fun _ _ _ => rfl
  bind {_ _ run next} hrun hnext := by
    intro d h
    obtain ⟨hsteps, hagain⟩ := hrun d h
    obtain ⟨hsteps', hagain'⟩ := hnext (run d).1 (run d).2 (h.steps hsteps)
    refine ⟨hsteps.trans hsteps', fun e hs => ?_⟩
    dsimp only
    rw [hagain e (hsteps'.trans hs)]
    exact hagain' e hs

theorem stable_refer (name : String) : Stable fun d => (d.spelling name, d.refer name) := by
  intro d h
  refine ⟨d.steps_refer name, fun e hs => ?_⟩
  dsimp only at hs ⊢
  rw [spelling_settled h hs, refer_settled h hs]

end Dependencies

open Dependencies

theorem File.opened_settled {d e : Dependencies} (x : File) (h : d.Claimed)
    (hs : Steps (x.opened d) e) : x.opened { e with package := d.package } = e := by
  have henter := (x.steps_opened d).trans hs
  have hpackage : e.package = d.package.or x.package? := by
    rw [package_steps henter, enter_eq]
  have hclaimed := h.enter x.package?
  have hreserve := steps_reserve_foldl (d.enter x.package?) x.declared
  have hrefer := steps_refer_foldl (x.declared.foldl reserve (d.enter x.package?))
    (x.imported.filter (x.declared.foldl reserve (d.enter x.package?)).wanted)
  unfold File.opened
  rw [enter_eq, ← hpackage]
  dsimp only
  rw [foldl_settled (fun d name => .single (.reserve d name)) (fun _ => reserve_settled) hclaimed
    (hrefer.trans hs), wanted_steps (hrefer.trans hs)]
  exact foldl_settled steps_refer refer_settled (hclaimed.steps hreserve) hs

namespace Java

open Script

variable {f : Format} {remaining : Nat} {stack : Stack} {n : Node} {c : Children} {d : Dependencies}

/-- What follows a stable script need not be stable to be repeated, if it changes nothing. -/
theorem run_bind_again {s : Script α} {k : α → Script β} (hs : Stable (s.run c))
    (hk : ∀ a e, ((k a).run c e).2 = e) (h : d.Claimed) :
    (s >>= k).run c ((s >>= k).run c d).2 = (s >>= k).run c d := by
  rw [run_monadBind, run_monadBind, hk, (hs d h).2 _ .refl]

theorem stable_renderImport (i : Import) (c : Children) : Stable ((renderImport i).run c) := by
  apply stable_of_fixed
  · exact fun d => (run_renderImport c i d).1
  · intro d e hs
    unfold renderImport
    cases i.member with
    | some member => rfl
    | none =>
      rw [run_dependencies_bind, run_dependencies_bind, ignores_steps hs, isSamePackage_steps hs]
      split <;> rfl

theorem stable_first (remaining : Nat) (stack : Stack) (n : Node) (h : n.kind ≠ .file) :
    Stable (((dispatcher f).children remaining stack).first n) := by
  apply sequential_first sequential_stable (q := fun i => i.kind ≠ .file)
  · exact fun x hx => hx rfl
  · exact fun _ hm => Item.ne_file_of_holds hm
  · exact stable_refer
  · exact fun i _ => stable_renderImport i
  · exact h

/-! Files. -/

/-- The imports are written from what the classes leave behind, so they too come out the same. -/
theorem run_content_again (x : File) (h : d.Claimed) :
    let c := below f remaining stack n
    (content n x).run c ((content n x).run c d).2 = (content n x).run c d := by
  intro c
  have hclasses : Stable ((texts (n.parts .classes (x.classes.map .ofTypeDecl))).run c) :=
    sequential_stable.run_quiet (quiet_classes n x) fun m hm =>
      stable_first remaining _ m (File.ne_file_of_renders hm)
  unfold content
  apply run_bind_again hclasses _ h
  intro classes e
  simp only [c, run_monadBind, run_importBlock, run_staticImports, run_comment, run_pure]

theorem run_renderFile_again (x : File) (h : d.Claimed) :
    let c := below f remaining stack n
    (renderFile n x).run c ((renderFile n x).run c d).2 = (renderFile n x).run c d := by
  intro c
  have hclaimed : (x.opened d).Claimed := (h.enter x.package?).steps (x.steps_opened d)
  have hsteps : Steps (x.opened d) ((content n x).run c (x.opened d)).2 :=
    (chained_content x (x.opened d)).steps
  simp only [c, run_renderFile]
  rw [x.opened_settled h hsteps, run_content_again x hclaimed]

/-- Rendering a node a second time gives the same, and leaves the dependencies as they are. -/
theorem first_again (f : Format) (remaining : Nat) (stack : Stack) (n : Node) (h : d.Claimed) :
    let first := ((dispatcher f).children remaining stack).first n
    first (first d).2 = first d := by
  by_cases hfile : n.kind = .file
  · obtain ⟨x, place, rfl⟩ := eq_file_of_kind hfile
    cases remaining with
    | zero => rfl
    | succ remaining =>
      rw [first_succ]
      simp only [script_file, run_monadBind, run_pure]
      rw [run_renderFile_again x h]
  · exact (stable_first remaining stack n hfile d h).2 _ .refl

theorem claimed_first (n : Node) (h : d.Claimed) :
    (((dispatcher f).children remaining stack).first n d).2.Claimed :=
  first_preserves Claimed.steps Claimed.of_package n h

/-! Sessions. -/

/-- The states of a session with the Java factory alone: what rendering makes of a new one, and what
is done to its dependencies in between. -/
inductive Reachable : Generator → Prop
  | new (ignored : List IgnorePattern) (f : Format) :
    Reachable ((Generator.new factory { ignored }).run f).1
  | fresh {g : Generator} (h : Reachable g) : Reachable g.fresh
  | withFormat {g : Generator} (h : Reachable g) (f : Format) : Reachable (g.withFormat f)
  | withMaxDepth {g : Generator} (h : Reachable g) (maxDepth : Nat) :
    Reachable (g.withMaxDepth maxDepth)
  | render {g : Generator} (h : Reachable g) (n : Node) : Reachable (g.render n).2
  | renderWithProvenance {g : Generator} (h : Reachable g) (n : Node) :
    Reachable (g.renderWithProvenance n).2
  | renderAll {g : Generator} (h : Reachable g) (n : Node) : Reachable (g.renderAll n).2
  | load {g : Generator} (h : Reachable g) (name : String) :
    Reachable (g.withDependencies (g.dependencies.load name).2)
  | reserve {g : Generator} (h : Reachable g) (name : String) :
    Reachable (g.withDependencies (g.dependencies.reserve name))
  | setPackage {g : Generator} (h : Reachable g) (package : String) :
    Reachable (g.withDependencies (g.dependencies.setPackage package).2)
  | unsetPackage {g : Generator} (h : Reachable g) (package : String) :
    Reachable (g.withDependencies (g.dependencies.unsetPackage package).2)
  /-- The dependencies of another session take the place of those there. -/
  | exchange {g g' : Generator} (h : Reachable g) (h' : Reachable g') :
    Reachable (g.withDependencies g'.dependencies)

namespace Reachable

variable {g : Generator}

theorem eq_session (h : Reachable g) :
    ∃ d f maxDepth, d.Claimed ∧ g = binding.session d f maxDepth := by
  -- No operation touches the factories, so a session is told by what it has claimed and is set to.
  induction h with
  | new ignored f => exact ⟨_, f, _, claimed_clean ignored, rfl⟩
  | fresh _ ih =>
    obtain ⟨d, f, maxDepth, -, rfl⟩ := ih
    exact ⟨_, f, maxDepth, claimed_clean d.ignored, rfl⟩
  | withFormat _ f ih =>
    obtain ⟨d, -, maxDepth, hd, rfl⟩ := ih
    exact ⟨d, f, maxDepth, hd, rfl⟩
  | withMaxDepth _ maxDepth ih =>
    obtain ⟨d, f, -, hd, rfl⟩ := ih
    exact ⟨d, f, maxDepth, hd, rfl⟩
  | render _ n ih =>
    obtain ⟨d, f, maxDepth, hd, rfl⟩ := ih
    exact ⟨_, f, maxDepth, claimed_first n hd, rfl⟩
  | renderWithProvenance _ n ih =>
    obtain ⟨d, f, maxDepth, hd, rfl⟩ := ih
    rw [binding.renderWithProvenance_session]
    exact ⟨_, f, maxDepth, claimed_first n hd, rfl⟩
  | renderAll _ n ih =>
    obtain ⟨d, f, maxDepth, hd, rfl⟩ := ih
    rw [binding.renderAll_session]
    exact ⟨_, f, maxDepth, claimed_first n hd, rfl⟩
  | load _ name ih =>
    obtain ⟨d, f, maxDepth, hd, rfl⟩ := ih
    exact ⟨_, f, maxDepth, hd.load name, rfl⟩
  | reserve _ name ih =>
    obtain ⟨d, f, maxDepth, hd, rfl⟩ := ih
    exact ⟨_, f, maxDepth, hd.reserve name, rfl⟩
  | setPackage _ package ih =>
    obtain ⟨d, f, maxDepth, hd, rfl⟩ := ih
    exact ⟨_, f, maxDepth, hd.enter (some package), rfl⟩
  | unsetPackage _ package ih =>
    obtain ⟨d, f, maxDepth, hd, rfl⟩ := ih
    refine ⟨_, f, maxDepth, ?_, rfl⟩
    unfold Dependencies.unsetPackage
    split
    · exact hd.of_package none
    · exact hd
  | exchange _ _ ih ih' =>
    obtain ⟨_, f, maxDepth, -, rfl⟩ := ih
    obtain ⟨d, _, _, hd, rfl⟩ := ih'
    exact ⟨d, f, maxDepth, hd, rfl⟩

end Reachable

/-- Whatever has happened in a session, rendering a node twice gives the same text twice, and the
second time the session stays as it is. -/
theorem render_again {g : Generator} (h : Reachable g) (n : Node) :
    (g.render n).2.render n = g.render n := by
  obtain ⟨d, f, maxDepth, hd, rfl⟩ := h.eq_session
  have hagain := first_again f maxDepth {} n hd
  rw [binding.render_session, binding.render_session]
  exact congrArg (fun r => (r.1.map (·.text), binding.session r.2 f maxDepth)) hagain

theorem render_again_widget :
    let used : Dependencies :=
      { ignored := ignorePatterns, loaded := ["java.awt.List"]
        owners := [("List", "java.awt.List")], package := some "org.other" }
    let g := binding.session used {} Generator.defaultMaxDepth
    let n : Node := ⟨.file widget, []⟩
    Reachable g ∧ (g.render n).2.dependencies ≠ g.dependencies
      ∧ (g.render n).2.render n = g.render n := by
  intro used g n
  have hnew := Reachable.new ignorePatterns {}
  have hg : Reachable g := (hnew.load "java.awt.List").setPackage "org.other"
  exact ⟨hg, by decide +kernel, render_again hg n⟩

end Java

end Scribe
