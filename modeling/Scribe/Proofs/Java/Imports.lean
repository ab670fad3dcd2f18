import Scribe.Proofs.Java.File
import Scribe.Proofs.Text.Bytes

/-!
The imports of a file. However the rendering of a session goes, each loaded name is not ignored and
owns its short name, so the imports of a file do not clash.
-/
namespace Scribe

/-- The dependencies of a session that ignores some names. -/
structure Dependencies.Sound (ignored : List IgnorePattern) (d : Dependencies) : Prop where
  ignored_eq : d.ignored = ignored
  consistent : d.Consistent

namespace Dependencies.Sound

variable {ignored : List IgnorePattern} {d e : Dependencies}

theorem clean (ignored : List IgnorePattern) : Sound ignored { ignored } :=
  ⟨rfl, consistent_clean ignored⟩

theorem steps (h : Sound ignored d) (hs : Steps d e) : Sound ignored e :=
  ⟨(ignored_steps hs).trans h.ignored_eq, h.consistent.steps hs⟩

theorem of_package (h : Sound ignored d) (package : Option String) :
    Sound ignored { d with package } :=
  ⟨h.ignored_eq, h.consistent.of_package package⟩

theorem enter (h : Sound ignored d) (package : Option String) :
    Sound ignored (d.enter package) := by
  refine ⟨?_, h.consistent.enter package⟩
  rw [enter_eq]
  exact h.ignored_eq

theorem covers_of_mem (h : Sound ignored d) {name : String} (hn : name ∈ d.loaded)
    {p : IgnorePattern} (hp : p ∈ ignored) : p.covers name = false := by
  have hwanted := h.consistent.wanted name hn
  rw [ignores, h.ignored_eq, List.any_eq_false] at hwanted
  exact Bool.eq_false_iff.2 (hwanted p hp)

end Dependencies.Sound

namespace Java

open Dependencies (Sound Steps)

variable {ignored : List IgnorePattern} {f : Format} {remaining : Nat} {stack : Stack} {n : Node}
  {d : Dependencies} {x : File} {place : Place}

/-! Soundness at every moment of a session. -/

theorem sound_settled (h : Sound ignored d) :
    Sound ignored (settled f remaining stack x place d) :=
  (h.enter x.package?).steps (steps_settled f remaining stack x place d)

theorem sound_first (h : Sound ignored d) (n : Node) :
    Sound ignored (((dispatcher f).children remaining stack).first n d).2 :=
  first_preserves Sound.steps Sound.of_package n h

theorem steps_ownVisit {t : Transform} (h : n.kind ≠ .file) :
    Steps (ownVisit f remaining stack n d t).before (ownVisit f remaining stack n d t).after := by
  have hsteps : Steps d (((dispatcher f).children (remaining + 1) stack).first n d).2 :=
    (chain_visits (remaining + 1) stack n d h).steps
  rwa [dependencies_first] at hsteps

theorem steps_visits (h : n.kind ≠ .file) {v : Visit}
    (hv : v ∈ (dispatcher f).visits remaining stack false n d) : Steps v.before v.after :=
  forall_visits (P := fun v => Steps v.before v.after)
    (fun _ _ _ _ _ hk => steps_ownVisit hk) h hv

theorem steps_body {v : Visit} (hv : v ∈ body f remaining stack x place d) :
    Steps v.before v.after :=
  forall_body (P := fun v => Steps v.before v.after) (fun _ _ _ _ _ hk => steps_ownVisit hk) hv

theorem sound_visits (h : Sound ignored d) {v : Visit}
    (hv : v ∈ (dispatcher f).visits remaining stack false n d) :
    Sound ignored v.before ∧ Sound ignored v.after := by
  by_cases hfile : n.kind = .file
  · obtain ⟨x, place, rfl⟩ := eq_file_of_kind hfile
    cases remaining with
    | zero => exact nomatch hv
    | succ remaining =>
      rw [visits_file] at hv
      rcases List.mem_cons.1 hv with rfl | hv
      · refine ⟨h, ?_⟩
        unfold ownVisit
        rw [← dependencies_first]
        exact sound_first h _
      · have hbefore : Sound ignored v.before := by
          apply (h.enter x.package?).steps
          exact (x.steps_opened d).trans
            ((chain_body f remaining stack x place d).steps_before hv).1
        exact ⟨hbefore, hbefore.steps (steps_body hv)⟩
  · have hbefore : Sound ignored v.before :=
      h.steps ((chain_visits remaining stack n d hfile).steps_before hv).1
    exact ⟨hbefore, hbefore.steps (steps_visits hfile hv)⟩

def rendered (g : Generator) (nodes : List Node) : Generator :=
  nodes.foldl (fun g n => (g.render n).2) g

/-- Rendering leaves a session with other dependencies, and these are sound again. -/
theorem sound_rendered (ignored : List IgnorePattern) (f : Format) (maxDepth : Nat)
    (nodes : List Node) : ∃ d, Sound ignored d ∧
      rendered (session ignored f maxDepth) nodes =
        (session ignored f maxDepth).withDependencies d := by
  suffices hgeneral : ∀ d, Sound ignored d → ∃ e, Sound ignored e ∧
      rendered ((session ignored f maxDepth).withDependencies d) nodes =
        (session ignored f maxDepth).withDependencies e from
    hgeneral { ignored } (.clean ignored)
  induction nodes with
  | nil => exact fun d hd => ⟨d, hd, rfl⟩
  | cons n nodes ih =>
    intro d hd
    unfold rendered
    rw [List.foldl_cons, render_session]
    exact ih _ (sound_first hd n)

/-! The import block. -/

variable (f remaining stack x place) in
/-- The names that a file imports, in order. -/
def importedNames (d : Dependencies) : List String :=
  let e := settled f remaining stack x place d
  if remaining = 0 then [] else e.loaded.filter e.wanted

theorem imports_eq_map (d : Dependencies) :
    (fileText f remaining stack x place d).imports =
      (importedNames f remaining stack x place d).map importLine := by
  rw [imports_fileText, importedNames]
  split <;> rfl

theorem mem_importedNames {name : String}
    (h : name ∈ importedNames f remaining stack x place d) :
    name ∈ (settled f remaining stack x place d).loaded
      ∧ (settled f remaining stack x place d).wanted name := by
  unfold importedNames at h
  split at h
  · exact nomatch h
  · exact List.mem_filter.1 h

theorem pairwise_importedNames {R : String → String → Prop}
    (h : (settled f remaining stack x place d).loaded.Pairwise R) :
    (importedNames f remaining stack x place d).Pairwise R := by
  unfold importedNames
  split
  · exact .nil
  · exact h.filter _

theorem package_settled (h : d.package = none) :
    (settled f remaining stack x place d).package = x.package? := by
  rw [Dependencies.package_steps (steps_settled f remaining stack x place d),
    Dependencies.enter_eq, h, Option.none_or]

theorem package?_ne_of_wanted {e : Dependencies} {name package : String}
    (hpackage : e.package = some package) (h : e.wanted name) :
    Name.package? name ≠ some package := by
  intro hname
  unfold Dependencies.wanted Dependencies.isSamePackage at h
  simp [hpackage, hname] at h

/-- Names that can be imported together. -/
structure Clear (ignored : List IgnorePattern) (x : File) (names : List String) : Prop where
  /-- In the order of their bytes. -/
  ascending : names.Pairwise (Text.bytes · < Text.bytes ·)
  distinct : names.Pairwise (Name.short · ≠ Name.short ·)
  uncovered : ∀ name ∈ names, ∀ p ∈ ignored, p.covers name = false
  foreign : ∀ name ∈ names, ∀ package, x.package? = some package →
    Name.package? name ≠ some package

theorem clear_importedNames (ignored : List IgnorePattern) (f : Format) (remaining : Nat)
    (stack : Stack) (x : File) (place : Place) :
    Clear ignored x (importedNames f remaining stack x place { ignored }) := by
  have hsound : Sound ignored (settled f remaining stack x place { ignored }) :=
    sound_settled (.clean ignored)
  refine ⟨?ascending, ?distinct, ?uncovered, ?foreign⟩
  case ascending =>
    exact (pairwise_importedNames hsound.consistent.ascending).imp Text.bytes_lt_of_lt
  case distinct => exact pairwise_importedNames hsound.consistent.pairwise_short
  case uncovered =>
    intro name hname p hp
    exact hsound.covers_of_mem (mem_importedNames hname).1 hp
  case foreign =>
    intro name hname package hpackage
    apply package?_ne_of_wanted _ (mem_importedNames hname).2
    rw [package_settled rfl, hpackage]

/-- The imports of a file that is rendered from nothing used are clear of each other, and beside
them stand only static ones. For at every moment of a session, whatever has been rendered before,
each loaded name is not ignored and owns its short name. -/
theorem imports_clear (ignored : List IgnorePattern) (f : Format) (maxDepth : Nat) :
    (∀ (x : File) (place : Place) (text : FileText),
      fileText? (session ignored f maxDepth) x place = some text →
      ((session ignored f maxDepth).render ⟨.file x, place⟩).1 = some (text.text f)
        ∧ (∃ names, text.imports = names.map importLine ∧ Clear ignored x names)
        ∧ ∀ line ∈ text.staticImports, ∃ i ∈ x.imports, ∃ member, i.member = some member
          ∧ line = "import static " ++ i.type.name ++ "." ++ member ++ ";")
      ∧ ∀ (nodes : List Node) (n : Node),
        ∀ v ∈ (rendered (session ignored f maxDepth) nodes).visits n,
          Sound ignored v.before ∧ Sound ignored v.after := by
  constructor
  · intro x place text htext
    have hrender := render_file ignored f maxDepth x place
    rw [htext] at hrender
    refine ⟨hrender, ?_⟩
    cases maxDepth with
    | zero => exact nomatch htext
    | succ remaining =>
      obtain rfl := Option.some.inj htext
      refine ⟨⟨_, imports_eq_map _, clear_importedNames ignored f remaining {} x place⟩, ?_⟩
      exact fun line => mem_staticImports_fileText f remaining {} x place _
  · intro nodes n v hv
    obtain ⟨d, hd, heq⟩ := sound_rendered ignored f maxDepth nodes
    rw [heq] at hv
    exact sound_visits hd hv

def widget : File where
  name := "com/acme/Widget.java"
  classes := [.classDecl
    { name := "Widget"
      fields :=
        [{ name := "items", type := .ofName "java.util.List" },
          { name := "view", type := .ofName "java.awt.List" },
          { name := "name", type := .ofName "java.lang.String" },
          { name := "next", type := .ofName "com.acme.Widget" }] }]

theorem fileText?_widget :
    ∃ text, fileText? (session ignorePatterns {} 8) widget [] = some text
      ∧ text.imports = ["import java.util.List;"] := by
  rw [← Option.map_eq_some_iff]
  decide +kernel

theorem imports_clear_widget :
    ∃ names, ["import java.util.List;"] = names.map importLine
      ∧ Clear ignorePatterns widget names := by
  obtain ⟨text, htext, himports⟩ := fileText?_widget
  rw [← himports]
  exact ((imports_clear ignorePatterns {} 8).1 widget [] text htext).2.1

end Java

end Scribe
