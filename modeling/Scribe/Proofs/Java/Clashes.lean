import Scribe.Proofs.Java.Spelling
import Scribe.Proofs.Model.Declared
import Mathlib.Data.List.Basic

/-!
Imports beside the declarations of the same file. A file declares its types before anything else
claims a short name, so a type of another file is never imported under the name of one that this
file declares. A type inside a declaration claims its short name before the declarations around it,
however, and when it is used it is imported even though a type at the top of the file has that name.
-/
namespace Scribe

namespace Name

theorem short_append_dot (package : String) {name : String} (h : '.' ∉ name.toList) :
    short (package ++ "." ++ name) = name := by
  have hkeep : ∀ c ∈ name.toList.reverse, (c != '.') = true := by
    intro c hc
    exact bne_iff_ne.2 fun heq => h (heq ▸ List.mem_reverse.1 hc)
  apply String.toList_inj.1
  rw [toList_short, String.toList_append, String.toList_append, List.reverse_append,
    List.reverse_append, List.takeWhile_append_of_pos hkeep]
  simp

end Name

theorem TypeDecl.short_qualify (package : Option String) {name : String}
    (h : '.' ∉ name.toList) : Name.short (qualify package name) = name := by
  cases package with
  | none => exact Name.short_eq_self h
  | some package => exact Name.short_append_dot package h

theorem TypeDecl.qualify_mem_declaredNames (package : Option String) {d : TypeDecl}
    {ds : List TypeDecl} (h : d ∈ ds) : qualify package d.name ∈ declaredNames package ds := by
  induction ds with
  | nil => exact nomatch h
  | cons e ds ih =>
    rw [declaredNames_cons, List.mem_append, List.mem_cons]
    rcases List.mem_cons.1 h with rfl | h
    · exact .inr (.inl rfl)
    · exact .inr (.inr (ih h))

namespace Dependencies

variable {d : Dependencies} {name : String} {names : List String}

theorem mem_loaded_refer_foldl (hown : d.owner? (Name.short name) = some name)
    (hwanted : d.wanted name) (h : name ∈ names) : name ∈ (names.foldl refer d).loaded := by
  induction names generalizing d with
  | nil => exact nomatch h
  | cons n names ih =>
    have hstep := d.steps_refer n
    rw [List.foldl_cons]
    rcases List.mem_cons.1 h with rfl | h
    · have hfree : d.conflicts name = false :=
        conflicts_eq_false_iff.2 fun owner ho => by
          rw [hown] at ho
          exact (Option.some.inj ho).symm
      exact mem_loaded_steps (steps_refer_foldl _ names) (mem_loaded_refer_self hfree hwanted)
    · apply ih (owner?_steps hstep hown) _ h
      rwa [wanted_steps hstep]

end Dependencies

/-- An import of a name would be written in a file: no pattern covers the name, and it lies in
another package. -/
structure File.MayImport (ignored : List IgnorePattern) (x : File) (name : String) : Prop where
  uncovered : ∀ p ∈ ignored, p.covers name = false
  foreign : ∀ package, x.package? = some package → Name.package? name ≠ some package

theorem File.mayImport_iff (ignored : List IgnorePattern) (x : File) (name : String) :
    x.MayImport ignored name ↔ (Dependencies.enter { ignored } x.package?).wanted name := by
  rw [Dependencies.enter_eq]
  simp only [Dependencies.wanted, Dependencies.ignores, Dependencies.isSamePackage,
    Option.none_or, Bool.not_eq_true', Bool.or_eq_false_iff, List.any_eq_false,
    Bool.not_eq_true]
  constructor
  · intro h
    refine ⟨h.uncovered, ?_⟩
    split
    · next current package hcurrent hname =>
      exact beq_eq_false_iff_ne.2 fun heq => h.foreign current hcurrent (heq ▸ hname)
    · rfl
  · rintro ⟨huncovered, hforeign⟩
    refine ⟨huncovered, fun package hpackage hname => ?_⟩
    simp [hpackage, hname] at hforeign

namespace Java

theorem importLine_injective : Function.Injective importLine := by
  intro a b h
  exact (String.append_right_inj _).1 ((String.append_left_inj _).1 h)

variable {ignored : List IgnorePattern} {f : Format} {remaining : Nat} {stack : Stack}
  {x : File} {place : Place} {name : String} {decl : TypeDecl}

theorem mem_importedNames_of_declared
    (hfirst : (x.declared.find? fun n => Name.short name = Name.short n) = some name)
    (hwanted : (Dependencies.enter { ignored } x.package?).wanted name)
    (hused : name ∈ x.imported
      ∨ ∃ v ∈ body f remaining stack x place { ignored }, v.reference? = some name)
    (hremaining : remaining ≠ 0) :
    name ∈ importedNames f remaining stack x place { ignored } := by
  have hclean := Dependencies.consistent_clean ignored
  have hreserved := Dependencies.steps_reserve_foldl
    (Dependencies.enter { ignored } x.package?) x.declared
  have hopened := x.steps_opened { ignored }
  have hchain := chain_body f remaining stack x place { ignored }
  have hsettled := steps_settled f remaining stack x place { ignored }
  have hloaded : name ∈ (settled f remaining stack x place { ignored }).loaded := by
    rcases hused with himported | ⟨v, hv, href⟩
    · apply Dependencies.mem_loaded_steps hchain.steps
      apply Dependencies.mem_loaded_refer_foldl
      · rw [Dependencies.owner?_reserve_foldl, Dependencies.enter_eq, hfirst]
        rfl
      · rwa [Dependencies.wanted_steps hreserved]
      · exact List.mem_filter.2 ⟨himported, by rwa [Dependencies.wanted_steps hreserved]⟩
    · rw [hchain.eq_foldl]
      apply Dependencies.mem_loaded_refer_foldl
      · rw [owner?_opened hclean, File.claimants, List.find?_append, hfirst]
        rfl
      · rwa [Dependencies.wanted_steps hopened]
      · exact List.mem_filterMap.2 ⟨v, hv, href⟩
  unfold importedNames
  rw [if_neg hremaining]
  refine List.mem_filter.2 ⟨hloaded, ?_⟩
  rwa [Dependencies.wanted_steps hsettled]

/-- A name whose short form a file declares is imported only if the file declares the name itself,
before any other with this short form. -/
theorem find?_declared_of_mem_importedNames (hdecl : decl ∈ x.classes)
    (hshort : Name.short name = decl.name)
    (h : name ∈ importedNames f remaining stack x place { ignored }) :
    (x.declared.find? fun n => Name.short name = Name.short n) = some name := by
  have hclean := Dependencies.consistent_clean ignored
  have hsound : Dependencies.Sound ignored (settled f remaining stack x place { ignored }) :=
    sound_settled (.clean ignored)
  have howner := hsound.consistent.owned name (mem_importedNames h).1
  have hdot : '.' ∉ decl.name.toList := hshort ▸ Name.dot_notMem_short name
  have hclaimed : (x.declared.find? fun n => Name.short name = Name.short n).isSome := by
    rw [List.find?_isSome]
    refine ⟨_, TypeDecl.qualify_mem_declaredNames x.package? hdecl, ?_⟩
    rw [TypeDecl.short_qualify _ hdot, hshort]
    exact decide_eq_true rfl
  obtain ⟨owner, hfirst⟩ := Option.isSome_iff_exists.1 hclaimed
  rw [owner?_settled hclean, File.claimants, List.append_assoc, List.find?_append, hfirst]
    at howner
  rw [hfirst]
  exact howner

/-- An import clashes with a declaration at the top of its file exactly if the imported type is
declared in the same file, before any other of that short name, and is used there. The types of
other files are never imported under such a name. -/
theorem import_clashes_iff (ignored : List IgnorePattern) (f : Format) (maxDepth : Nat) (x : File)
    (place : Place) (text : FileText)
    (h : fileText? (session ignored f maxDepth) x place = some text)
    (decl : TypeDecl) (hdecl : decl ∈ x.classes) (name : String) :
    importLine name ∈ text.imports ∧ Name.short name = decl.name ↔
      (x.declared.find? fun n => decl.name = Name.short n) = some name
        ∧ x.MayImport ignored name
        ∧ (name ∈ x.imported ∨
          ∃ v ∈ (session ignored f maxDepth).visits ⟨.file x, place⟩, v.reference? = some name)
        ∧ 1 < maxDepth := by
  cases maxDepth with
  | zero => exact nomatch h
  | succ remaining =>
    obtain rfl := Option.some.inj h
    have hvisits : (∃ v ∈ (session ignored f (remaining + 1)).visits ⟨.file x, place⟩,
        v.reference? = some name) ↔
        ∃ v ∈ body f remaining {} x place { ignored }, v.reference? = some name := by
      rw [visits_session, List.exists_mem_cons_iff]
      exact or_iff_right nofun
    have himports : importLine name ∈ (fileText f remaining {} x place { ignored }).imports ↔
        name ∈ importedNames f remaining {} x place { ignored } := by
      rw [imports_eq_map, List.mem_map_of_injective importLine_injective]
    rw [hvisits, File.mayImport_iff]
    constructor
    · rintro ⟨hline, hshort⟩
      have hname := himports.1 hline
      refine ⟨?_, ?_, origin_of_mem_importedNames hname, ?_⟩
      · rw [← hshort]
        exact find?_declared_of_mem_importedNames hdecl hshort hname
      · rw [← Dependencies.wanted_steps (steps_settled f remaining {} x place { ignored })]
        exact (mem_importedNames hname).2
      · cases remaining with
        | zero => exact nomatch hname
        | succ remaining => omega
    · rintro ⟨hfirst, hwanted, hused, hdepth⟩
      have htest := List.find?_some hfirst
      have hshort : Name.short name = decl.name := (of_decide_eq_true htest).symm
      rw [← hshort] at hfirst
      refine ⟨himports.2 ?_, hshort⟩
      exact mem_importedNames_of_declared hfirst hwanted hused (by omega)

/-- A file that declares a type inside a declaration and another of that name at its top. -/
def shelf : File where
  name := "com/acme/Shelf.java"
  classes := [
    .classDecl
      { name := "Shelf"
        fields := [{ name := "first", type := .ofName "com.acme.Shelf.Entry" }]
        classes := [.classDecl { name := "Entry" }] },
    .classDecl { name := "Entry" }]

theorem import_clashes_shelf : ∃ text decl,
    fileText? (session ignorePatterns {} Generator.defaultMaxDepth) shelf [] = some text
      ∧ decl ∈ shelf.classes
      ∧ importLine "com.acme.Shelf.Entry" ∈ text.imports
      ∧ Name.short "com.acme.Shelf.Entry" = decl.name := by
  have hvisits : ∃ v ∈ (session ignorePatterns {} Generator.defaultMaxDepth).visits
      ⟨.file shelf, []⟩, v.reference? = some "com.acme.Shelf.Entry" := by
    have hnames : ((session ignorePatterns {} Generator.defaultMaxDepth).visits
        ⟨.file shelf, []⟩).filterMap (·.reference?) = ["com.acme.Shelf.Entry"] := by
      decide +kernel
    exact List.mem_filterMap.1 (hnames ▸ List.mem_singleton_self _)
  refine ⟨_, .classDecl { name := "Entry" }, rfl, by simp [shelf], ?_⟩
  apply (import_clashes_iff ignorePatterns {} Generator.defaultMaxDepth shelf [] _ rfl _
    (by simp [shelf]) "com.acme.Shelf.Entry").2
  have hmay : shelf.MayImport ignorePatterns "com.acme.Shelf.Entry" :=
    (File.mayImport_iff _ _ _).2 (by decide +kernel)
  exact ⟨by decide +kernel, hmay, .inr hvisits, by decide⟩

end Java

end Scribe
