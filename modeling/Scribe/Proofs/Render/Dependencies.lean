import Scribe.Render.Dependencies
import Mathlib.Logic.Relation

/-!
What can happen to the dependencies of a session. Every change that a reference, an import or a
declaration makes is a `Step`, and what steps keep is proved here once: owners and loaded names
stay, and each loaded name is not ignored and owns its short name.
-/
namespace Scribe.Dependencies

variable {d e : Dependencies} {name short owner : String}

/-! Reading back what the operations write. -/

@[simp] theorem ignored_reserve (d : Dependencies) (name : String) :
    (d.reserve name).ignored = d.ignored := by
  unfold reserve; split <;> rfl

@[simp] theorem ignores_reserve (d : Dependencies) (name n : String) :
    (d.reserve name).ignores n = d.ignores n := by
  simp only [ignores, ignored_reserve]

theorem owner?_reserve (d : Dependencies) (name short : String) :
    (d.reserve name).owner? short =
      (d.owner? short).or (if short = Name.short name then some name else none) := by
  unfold reserve
  split
  · next o h =>
    by_cases hs : short = Name.short name
    · simp [hs, h]
    · simp [hs]
  · next h =>
    simp only [owner?, List.lookup_cons] at h ⊢
    by_cases hs : short = Name.short name
    · simp [hs, h]
    · simp [hs, beq_eq_false_iff_ne.2 hs]

theorem reserve_of_owned (h : (d.owner? (Name.short name)).isSome) : d.reserve name = d := by
  obtain ⟨owner, ho⟩ := Option.isSome_iff_exists.1 h
  unfold reserve
  rw [ho]

theorem load_of_not_loaded (h : d.isLoaded name = false) :
    (d.load name).2 = { d with loaded := insertName name d.loaded }.reserve name := by
  simp [load, h]

theorem load_of_loaded (h : d.isLoaded name = true) : (d.load name).2 = d := by
  simp [load, h]

@[simp] theorem ignored_load (d : Dependencies) (name : String) :
    (d.load name).2.ignored = d.ignored := by
  unfold load; split <;> simp

@[simp] theorem ignores_load (d : Dependencies) (name n : String) :
    (d.load name).2.ignores n = d.ignores n := by
  simp only [ignores, ignored_load]

@[simp] theorem package_load (d : Dependencies) (name : String) :
    (d.load name).2.package = d.package := by
  unfold load; split <;> simp

theorem mem_loaded_load {n : String} :
    n ∈ (d.load name).2.loaded ↔ n = name ∨ n ∈ d.loaded := by
  by_cases h : d.isLoaded name
  · rw [load_of_loaded h]
    simp only [isLoaded, List.contains_iff_mem] at h
    constructor
    · exact .inr
    · rintro (rfl | hn)
      · exact h
      · exact hn
  · rw [load_of_not_loaded (by simpa using h), loaded_reserve, mem_insertName]

theorem owner?_load_of_not_loaded (h : d.isLoaded name = false) (short : String) :
    (d.load name).2.owner? short =
      (d.owner? short).or (if short = Name.short name then some name else none) := by
  rw [load_of_not_loaded h, owner?_reserve]
  rfl

theorem conflicts_eq_false_iff :
    d.conflicts name = false ↔ ∀ owner, d.owner? (Name.short name) = some owner → owner = name := by
  unfold conflicts
  split
  · next o h => simp [h]
  · next h => simp [h]

theorem conflicts_eq_true_iff :
    d.conflicts name = true ↔ ∃ owner, d.owner? (Name.short name) = some owner ∧ owner ≠ name := by
  unfold conflicts
  split
  · next o h => simp [h]
  · next h => simp [h]

theorem pairwise_insertName (name : String) {ns : List String} (h : ns.Pairwise (· < ·)) :
    (insertName name ns).Pairwise (· < ·) := by
  induction ns with
  | nil => simp [insertName]
  | cons n ns ih =>
    rw [List.pairwise_cons] at h
    unfold insertName
    split
    · next hlt =>
      refine .cons (fun m hm => ?_) (.cons h.1 h.2)
      rcases List.mem_cons.1 hm with rfl | hm
      · exact hlt
      · exact String.lt_trans hlt (h.1 m hm)
    · split
      · exact .cons h.1 h.2
      · next hnlt hne =>
        refine .cons (fun m hm => ?_) (ih h.2)
        rcases mem_insertName.1 hm with rfl | hm
        · exact Std.lt_of_le_of_ne (String.not_lt.1 hnlt) (Ne.symm hne)
        · exact h.1 m hm

/-! Steps. -/

/-- One change to the dependencies: a name claims its short form, or a name that needs an import
and whose short form is free is loaded. -/
inductive Step : Dependencies → Dependencies → Prop
  | reserve (d : Dependencies) (name : String) : Step d (d.reserve name)
  | load (d : Dependencies) (name : String) (ignored : d.ignores name = false)
    (foreign : d.isSamePackage name = false) (free : d.conflicts name = false) :
    Step d (d.load name).2

abbrev Steps : Dependencies → Dependencies → Prop := Relation.ReflTransGen Step

theorem ignored_step (h : Step d e) : e.ignored = d.ignored := by
  cases h <;> simp

theorem package_step (h : Step d e) : e.package = d.package := by
  cases h <;> simp

theorem mem_loaded_step {n : String} (h : Step d e) (hn : n ∈ d.loaded) : n ∈ e.loaded := by
  cases h with
  | reserve => simpa using hn
  | load => exact mem_loaded_load.2 (.inr hn)

theorem owner?_step (h : Step d e) (ho : d.owner? short = some owner) :
    e.owner? short = some owner := by
  cases h with
  | reserve name => rw [owner?_reserve, ho, Option.some_or]
  | load name =>
    by_cases hl : d.isLoaded name
    · rwa [load_of_loaded hl]
    · rw [owner?_load_of_not_loaded (by simpa using hl), ho, Option.some_or]

theorem ignored_steps (h : Steps d e) : e.ignored = d.ignored := by
  induction h with
  | refl => rfl
  | tail _ h ih => rw [ignored_step h, ih]

theorem ignores_steps (h : Steps d e) (n : String) : e.ignores n = d.ignores n := by
  simp only [ignores, ignored_steps h]

theorem package_steps (h : Steps d e) : e.package = d.package := by
  induction h with
  | refl => rfl
  | tail _ h ih => rw [package_step h, ih]

theorem isSamePackage_steps (h : Steps d e) (n : String) :
    e.isSamePackage n = d.isSamePackage n := by
  simp only [isSamePackage, package_steps h]

theorem mem_loaded_steps {n : String} (h : Steps d e) (hn : n ∈ d.loaded) : n ∈ e.loaded := by
  induction h with
  | refl => exact hn
  | tail _ h ih => exact mem_loaded_step h ih

/-- A short name keeps its first owner. -/
theorem owner?_steps (h : Steps d e) (ho : d.owner? short = some owner) :
    e.owner? short = some owner := by
  induction h with
  | refl => exact ho
  | tail _ h ih => exact owner?_step h ih

/-- The short name of each loaded name is owned, though perhaps by another name. -/
def Claimed (d : Dependencies) : Prop :=
  ∀ name ∈ d.loaded, (d.owner? (Name.short name)).isSome

theorem claimed_clean (ignored : List IgnorePattern) : Claimed { ignored } := fun _ h => nomatch h

theorem Claimed.reserve (h : d.Claimed) (name : String) : (d.reserve name).Claimed := by
  intro n hn
  rw [loaded_reserve] at hn
  rw [owner?_reserve, Option.isSome_or, h n hn, Bool.true_or]

/-- Loading keeps this even where the short name belongs to another name. -/
theorem Claimed.load (h : d.Claimed) (name : String) : (d.load name).2.Claimed := by
  by_cases hl : d.isLoaded name
  · rwa [load_of_loaded hl]
  intro n hn
  rw [owner?_load_of_not_loaded (by simpa using hl), Option.isSome_or]
  rcases mem_loaded_load.1 hn with rfl | hn
  · simp
  · rw [h n hn, Bool.true_or]

theorem Claimed.steps (h : d.Claimed) (hs : Steps d e) : e.Claimed := by
  induction hs with
  | refl => exact h
  | tail _ hs ih =>
    cases hs with
    | reserve name => exact ih.reserve name
    | load name => exact ih.load name

theorem Claimed.of_package (h : d.Claimed) (package : Option String) :
    { d with package }.Claimed := h

/-- What holds of the dependencies at every moment of a session that began with none. -/
structure Consistent (d : Dependencies) : Prop where
  ascending : d.loaded.Pairwise (· < ·)
  owned : ∀ name ∈ d.loaded, d.owner? (Name.short name) = some name
  wanted : ∀ name ∈ d.loaded, d.ignores name = false

theorem consistent_clean (ignored : List IgnorePattern) : Consistent { ignored } where
  ascending := .nil
  owned _ h := nomatch h
  wanted _ h := nomatch h

theorem Consistent.reserve (h : d.Consistent) (name : String) : (d.reserve name).Consistent where
  ascending := by simpa using h.ascending
  owned n hn := by
    rw [loaded_reserve] at hn
    rw [owner?_reserve, h.owned n hn, Option.some_or]
  wanted n hn := by
    rw [loaded_reserve] at hn
    rw [ignores_reserve, h.wanted n hn]

theorem Consistent.load (h : d.Consistent) (ignored : d.ignores name = false)
    (free : d.conflicts name = false) : (d.load name).2.Consistent := by
  by_cases hl : d.isLoaded name
  · rwa [load_of_loaded hl]
  have hl : d.isLoaded name = false := by simpa using hl
  refine ⟨?_, fun n hn => ?_, fun n hn => ?_⟩
  · rw [load_of_not_loaded hl, loaded_reserve]
    exact pairwise_insertName name h.ascending
  · rw [owner?_load_of_not_loaded hl]
    rcases mem_loaded_load.1 hn with rfl | hn
    · cases ho : d.owner? (Name.short n) with
      | none => simp
      | some o => simp [conflicts_eq_false_iff.1 free o ho]
    · rw [h.owned n hn, Option.some_or]
  · rw [ignores_load]
    rcases mem_loaded_load.1 hn with rfl | hn
    · exact ignored
    · exact h.wanted n hn

theorem Consistent.step (h : d.Consistent) (hs : Step d e) : e.Consistent := by
  cases hs with
  | reserve name => exact h.reserve name
  | load name ignored _ free => exact h.load ignored free

theorem Consistent.steps (h : d.Consistent) (hs : Steps d e) : e.Consistent := by
  induction hs with
  | refl => exact h
  | tail _ hs ih => exact ih.step hs

theorem Consistent.claimed (h : d.Consistent) : d.Claimed := by
  intro name hname
  rw [h.owned name hname]
  rfl

/-- The package does not matter to consistency, so a file may set and release it. -/
theorem Consistent.of_package (h : d.Consistent) (package : Option String) :
    { d with package }.Consistent :=
  ⟨h.ascending, h.owned, h.wanted⟩

theorem Consistent.short_injective (h : d.Consistent) {m n : String} (hm : m ∈ d.loaded)
    (hn : n ∈ d.loaded) (hs : Name.short m = Name.short n) : m = n := by
  have howner := h.owned m hm
  rw [hs, h.owned n hn] at howner
  exact (Option.some.inj howner).symm

theorem Consistent.pairwise_short (h : d.Consistent) :
    d.loaded.Pairwise (Name.short · ≠ Name.short ·) := by
  refine h.ascending.imp_of_mem fun {m n} hm hn hlt hs => ?_
  rw [h.short_injective hm hn hs] at hlt
  exact String.lt_irrefl n hlt

end Scribe.Dependencies
