import Scribe.Proofs.Java.Imports
import Scribe.Proofs.Java.Runs
import Mathlib.Data.List.Sort

/-!
Ignoring more names. A name that is ignored claims its short name like one that is loaded, so two
sessions in which different names are ignored write every reference alike. They differ only in the
names that are loaded.
-/
namespace Scribe

namespace Dependencies

variable {d e : Dependencies} {name : String} {names : List String}

theorem insertName_of_mem (h : names.Pairwise (· < ·)) (hn : name ∈ names) :
    insertName name names = names := by
  apply (pairwise_insertName name h).eq_of_mem_iff h
  intro n
  rw [mem_insertName]
  constructor
  · rintro (rfl | hn)
    · exact hn
    · exact hn
  · exact .inr

theorem filter_insertName (h : names.Pairwise (· < ·)) (p : String → Bool) (name : String) :
    (insertName name names).filter p =
      if p name then insertName name (names.filter p) else names.filter p := by
  have hinsert := (pairwise_insertName name h).filter p
  split
  · next hp =>
    apply hinsert.eq_of_mem_iff (pairwise_insertName name (h.filter p))
    intro n
    simp only [List.mem_filter, mem_insertName]
    grind
  · next hp =>
    apply hinsert.eq_of_mem_iff (h.filter p)
    intro n
    simp only [List.mem_filter, mem_insertName]
    grind

theorem owners_reserve (d : Dependencies) (name : String) :
    (d.reserve name).owners =
      if (d.owners.lookup (Name.short name)).isSome then d.owners
      else (Name.short name, name) :: d.owners := by
  unfold reserve owner?
  cases d.owners.lookup (Name.short name) <;> rfl

theorem owners_load (h : d.Claimed) (name : String) :
    (d.load name).2.owners = (d.reserve name).owners := by
  cases hl : d.isLoaded name with
  | true =>
    rw [load_of_loaded hl, reserve_of_owned (h name (List.contains_iff_mem.1 hl))]
  | false =>
    rw [load_of_not_loaded hl, owners_reserve, owners_reserve]

theorem loaded_load (h : d.loaded.Pairwise (· < ·)) (name : String) :
    (d.load name).2.loaded = insertName name d.loaded := by
  cases hl : d.isLoaded name with
  | true => rw [load_of_loaded hl, insertName_of_mem h (List.contains_iff_mem.1 hl)]
  | false => rw [load_of_not_loaded hl, loaded_reserve]

/-- The dependencies of two sessions, of which the second ignores more names. -/
structure IgnoresMore (d e : Dependencies) : Prop where
  consistent : d.Consistent
  more : ∀ name, d.ignores name → e.ignores name
  owners : e.owners = d.owners
  package : e.package = d.package
  loaded : e.loaded = d.loaded.filter (!e.ignores ·)

namespace IgnoresMore

theorem claimed (h : IgnoresMore d e) : e.Claimed := by
  intro name hname
  rw [h.loaded] at hname
  have howner := h.consistent.claimed name (List.mem_filter.1 hname).1
  unfold owner? at howner ⊢
  rwa [h.owners]

theorem ascending (h : IgnoresMore d e) : e.loaded.Pairwise (· < ·) := by
  rw [h.loaded]
  exact h.consistent.ascending.filter _

theorem conflicts (h : IgnoresMore d e) (name : String) : e.conflicts name = d.conflicts name := by
  unfold Dependencies.conflicts owner?
  rw [h.owners]

theorem spelling (h : IgnoresMore d e) (name : String) : e.spelling name = d.spelling name := by
  unfold Dependencies.spelling
  rw [h.conflicts]

theorem isSamePackage (h : IgnoresMore d e) (name : String) :
    e.isSamePackage name = d.isSamePackage name := by
  unfold Dependencies.isSamePackage
  rw [h.package]

theorem reserve (h : IgnoresMore d e) (name : String) :
    IgnoresMore (d.reserve name) (e.reserve name) where
  consistent := h.consistent.reserve name
  more := by simpa using h.more
  owners := by rw [owners_reserve, owners_reserve, h.owners]
  package := by simpa using h.package
  loaded := by simpa using h.loaded

/-- A name that only the second session ignores is loaded in the first one alone. -/
theorem load_reserve (h : IgnoresMore d e) (hignored : d.ignores name = false)
    (hfree : d.conflicts name = false) (hmore : e.ignores name = true) :
    IgnoresMore (d.load name).2 (e.reserve name) where
  consistent := h.consistent.load hignored hfree
  more := by simpa using h.more
  owners := by rw [owners_load h.consistent.claimed, owners_reserve, owners_reserve, h.owners]
  package := by simpa using h.package
  loaded := by
    rw [loaded_load h.consistent.ascending, filter_insertName h.consistent.ascending]
    simpa [hmore] using h.loaded

theorem load (h : IgnoresMore d e) (hfree : d.conflicts name = false)
    (hmore : e.ignores name = false) : IgnoresMore (d.load name).2 (e.load name).2 where
  consistent := by
    apply h.consistent.load _ hfree
    rw [Bool.eq_false_iff]
    intro hignored
    rw [h.more name hignored] at hmore
    exact nomatch hmore
  more := by simpa using h.more
  owners := by
    rw [owners_load h.consistent.claimed, owners_load h.claimed, owners_reserve, owners_reserve,
      h.owners]
  package := by simpa using h.package
  loaded := by
    rw [loaded_load h.consistent.ascending, loaded_load h.ascending,
      filter_insertName h.consistent.ascending, h.loaded]
    simp [hmore]

theorem refer (h : IgnoresMore d e) (name : String) :
    IgnoresMore (d.refer name) (e.refer name) := by
  unfold Dependencies.refer
  rw [h.conflicts, h.isSamePackage]
  cases hconflicts : d.conflicts name with
  | true => exact h
  | false =>
    cases hsame : d.isSamePackage name with
    | true => simpa using h.reserve name
    | false =>
      cases hignored : d.ignores name with
      | true => simpa [h.more name hignored] using h.reserve name
      | false =>
        cases hmore : e.ignores name with
        | true => simpa using h.load_reserve hignored hconflicts hmore
        | false => simpa using h.load hconflicts hmore

theorem reserve_foldl (h : IgnoresMore d e) (names : List String) :
    IgnoresMore (names.foldl .reserve d) (names.foldl .reserve e) := by
  induction names generalizing d e with
  | nil => exact h
  | cons name names ih => exact ih (h.reserve name)

theorem enter (h : IgnoresMore d e) (package : Option String) :
    IgnoresMore (d.enter package) (e.enter package) := by
  refine ⟨h.consistent.enter package, ?_, ?_, ?_, ?_⟩ <;> rw [enter_eq, enter_eq]
  · exact h.more
  · exact h.owners
  · exact congrArg (·.or package) h.package
  · exact h.loaded

end IgnoresMore

theorem ignoresMore_clean {P Q : List IgnorePattern}
    (h : ∀ name, (∃ p ∈ P, p.covers name) → ∃ q ∈ Q, q.covers name) :
    IgnoresMore { ignored := P } { ignored := Q } where
  consistent := consistent_clean P
  more name hname := List.any_eq_true.2 (h name (List.any_eq_true.1 hname))
  owners := rfl
  package := rfl
  loaded := rfl

/-- A run that does not show which names are ignored. -/
def Blind (run : Dependencies → α × Dependencies) : Prop :=
  ∀ d e, IgnoresMore d e → (run e).1 = (run d).1 ∧ IgnoresMore (run d).2 (run e).2

theorem sequential_blind : Sequential Blind where
  pure _ _ _ h := ⟨rfl, h⟩
  bind {_ _ run next} hrun hnext := by
    intro d e h
    obtain ⟨hsame, h⟩ := hrun d e h
    dsimp only
    rw [hsame]
    exact hnext _ _ _ h

theorem blind_refer (name : String) : Blind fun d => (d.spelling name, d.refer name) :=
  fun _ _ h => ⟨h.spelling name, h.refer name⟩

end Dependencies

def File.ImportsStatic (x : File) : Prop := ∀ i ∈ x.imports, i.isStatic

instance (x : File) : Decidable x.ImportsStatic :=
  inferInstanceAs (Decidable (∀ i ∈ x.imports, i.isStatic))

open Dependencies

theorem File.opened_ignoresMore {x : File} (hx : x.ImportsStatic) {d e : Dependencies}
    (h : IgnoresMore d e) : IgnoresMore (x.opened d) (x.opened e) := by
  have hnone : x.imported = [] := by
    unfold File.imported
    rw [List.filter_eq_nil_iff.2 (by simpa [ImportsStatic] using hx), List.map_nil]
  unfold File.opened
  rw [hnone]
  exact (h.enter x.package?).reserve_foldl x.declared

namespace Java

open Script

variable {f : Format} {remaining : Nat} {stack : Stack} {n : Node} {d e : Dependencies}

def Inner (i : Item) : Prop := i.kind.isPart ∨ ∃ m, i = .importDecl m ∧ m.isStatic

theorem blind_static {i : Import} (h : i.isStatic) (c : Children) :
    Blind ((renderImport i).run c) := by
  obtain ⟨member, hmember⟩ := Option.isSome_iff_exists.1 h
  unfold renderImport
  rw [hmember]
  exact sequential_blind.pure _

theorem blind_first (remaining : Nat) (stack : Stack) (n : Node) (h : Inner n.item) :
    Blind (((dispatcher f).children remaining stack).first n) := by
  apply sequential_first sequential_blind (q := Inner)
  · rintro x (h | ⟨i, h, _⟩)
    · exact absurd h (by simp [Item.kind, Kind.isPart])
    · exact absurd h (by simp)
  · rintro i m (h | ⟨s, rfl, _⟩) hm
    · exact .inl (Item.isPart_of_holds h hm)
    · simp [Item.heading, Item.javadoc?, Item.annotations?] at hm
  · exact blind_refer
  · rintro i (h | ⟨s, heq, h⟩) c
    · exact absurd h (by simp [Item.kind, Kind.isPart])
    · cases heq
      exact blind_static h c
  · exact h

theorem blind_quiet {s : Script α} (hs : Quiet Inner s) :
    Blind (s.run (below f remaining stack n)) :=
  sequential_blind.run_quiet hs fun m hm => blind_first remaining _ m hm

theorem content_ignoresMore (x : File) (h : IgnoresMore d e) :
    let a := (content n x).run (below f remaining stack n) d
    let b := (content n x).run (below f remaining stack n) e
    b.1 = { a.1 with imports := b.1.imports } ∧ IgnoresMore a.2 b.2 := by
  have hclasses : Quiet Inner (texts (n.parts .classes (x.classes.map .ofTypeDecl))) :=
    quiet_parts fun d _ => .inl (Item.isPart_ofTypeDecl d)
  have hstatic : Quiet Inner (staticImports n x.imports) := by
    apply quiet_texts
    intro m hm
    obtain ⟨i, -, hi, place, rfl⟩ := mem_staticImports hm
    exact .inr ⟨i, rfl, hi⟩
  have hcomment : Quiet Inner (comment n x) := by
    unfold comment
    cases x.javadoc with
    | none => exact quiet_pure _
    | some j => exact quiet_text? (.inl rfl)
  obtain ⟨hclasses, h⟩ := blind_quiet (f := f) hclasses d e h
  obtain ⟨hstatic, h⟩ := blind_quiet hstatic _ _ h
  obtain ⟨hcomment, h⟩ := blind_quiet hcomment _ _ h
  unfold content
  simp only [run_monadBind, run_pure, run_importBlock]
  rw [hclasses, hstatic, hcomment]
  exact ⟨rfl, h⟩

/-- Texts of a file that differ in their import blocks alone: of the names that the first imports,
the second imports those that pass a test. -/
structure FileText.ImportsFewer (keep : String → Bool) (a b : FileText) : Prop where
  javadoc : b.javadoc = a.javadoc
  package : b.package = a.package
  staticImports : b.staticImports = a.staticImports
  classes : b.classes = a.classes
  imports : ∃ names : List String, a.imports = names.map importLine
    ∧ b.imports = (names.filter keep).map importLine

variable {x : File} {place : Place}

theorem settled_ignoresMore (hx : x.ImportsStatic) (h : IgnoresMore d e) :
    IgnoresMore (settled f remaining stack x place d) (settled f remaining stack x place e) :=
  (content_ignoresMore x (x.opened_ignoresMore hx h)).2

theorem importedNames_ignoresMore (hx : x.ImportsStatic) (h : IgnoresMore d e) :
    importedNames f remaining stack x place e =
      (importedNames f remaining stack x place d).filter (!e.ignores ·) := by
  have hsettled : IgnoresMore (settled f remaining stack x place d)
      (settled f remaining stack x place e) := settled_ignoresMore hx h
  have hkeep : ∀ name, (settled f remaining stack x place e).ignores name = e.ignores name := by
    intro name
    rw [ignores_steps (steps_settled f remaining stack x place e), enter_eq]
    rfl
  unfold importedNames
  dsimp only
  split
  · rfl
  · rw [hsettled.loaded, List.filter_filter, List.filter_filter]
    apply List.filter_congr
    intro name _
    have hmore := hsettled.more name
    simp only [wanted, hsettled.isSamePackage, hkeep] at hmore ⊢
    grind

theorem fileText_importsFewer (hx : x.ImportsStatic) (h : IgnoresMore d e) :
    (fileText f remaining stack x place d).ImportsFewer (!e.ignores ·)
      (fileText f remaining stack x place e) := by
  have hrest : fileText f remaining stack x place e =
      { fileText f remaining stack x place d with
        imports := (fileText f remaining stack x place e).imports } := by
    unfold fileText
    simp only [run_renderFile]
    exact (content_ignoresMore x (x.opened_ignoresMore hx h)).1
  refine ⟨?_, ?_, ?_, ?_, ?imports⟩
  case imports =>
    refine ⟨importedNames f remaining stack x place d, imports_eq_map d, ?_⟩
    rw [imports_eq_map, importedNames_ignoresMore hx h]
  all_goals rw [hrest]

/-- Where a file imports no type by name, ignoring more names takes from its import block the lines
that name them, and changes nothing else. -/
theorem imports_ignored (P Q : List IgnorePattern) (f : Format) (maxDepth : Nat) (x : File)
    (place : Place) (hx : x.ImportsStatic)
    (hmore : ∀ name, (∃ p ∈ P, p.covers name) → ∃ q ∈ Q, q.covers name) :
    (∀ ignored, ((session ignored f maxDepth).render ⟨.file x, place⟩).1 =
        (fileText? (session ignored f maxDepth) x place).map (·.text f))
      ∧ Option.Rel (FileText.ImportsFewer fun name => !Q.any (·.covers name))
        (fileText? (session P f maxDepth) x place) (fileText? (session Q f maxDepth) x place) := by
  refine ⟨fun ignored => render_file ignored f maxDepth x place, ?_⟩
  cases maxDepth with
  | zero => exact .none
  | succ remaining => exact .some (fileText_importsFewer hx (ignoresMore_clean hmore))

theorem imports_ignored_widget :
    let ignored := ignorePatterns ++ [.members "java.util"]
    ∃ a b, fileText? (session ignorePatterns {} 8) widget [] = some a
      ∧ fileText? (session ignored {} 8) widget [] = some b
      ∧ a.imports = ["import java.util.List;"] ∧ b.imports = []
      ∧ a.ImportsFewer (fun name => !ignored.any (·.covers name)) b := by
  intro ignored
  obtain ⟨a, ha, himports⟩ := fileText?_widget
  have hnone : (fileText? (session ignored {} 8) widget []).map (·.imports) = some [] := by
    decide +kernel
  obtain ⟨b, hb, hnone⟩ := Option.map_eq_some_iff.1 hnone
  have hrel := (imports_ignored ignorePatterns ignored {} 8 widget [] (by decide)
    fun name ⟨p, hp, hcovers⟩ => ⟨p, List.mem_append_left _ hp, hcovers⟩).2
  rw [ha, hb] at hrel
  cases hrel with
  | some hrel => exact ⟨a, b, ha, hb, himports, hnone, hrel⟩

end Java

end Scribe
