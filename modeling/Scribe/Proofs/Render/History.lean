import Scribe.Proofs.Render.Dependencies
import Scribe.Proofs.Text.Bytes
import Mathlib.Data.List.Induction

/-!
The dependencies told by their history. Whatever operations were made on a clean record and in
whatever order, each answer depends on them alone: on whether a name was loaded, on the first
claim to a short name, and on the last package that was set and not released.
-/
namespace Scribe.Dependencies

inductive Operation
  | load (name : String)
  | reserve (name : String)
  | setPackage (package : String)
  | unsetPackage (package : String)
deriving DecidableEq, Repr

namespace Operation

def apply (d : Dependencies) : Operation → Dependencies
  | .load name => (d.load name).2
  | .reserve name => d.reserve name
  | .setPackage package => (d.setPackage package).2
  | .unsetPackage package => (d.unsetPackage package).2

/-- The name that an operation would give its short name to. -/
def claim? : Operation → Option String
  | .load name | .reserve name => some name
  | .setPackage _ | .unsetPackage _ => none

end Operation

def run (start : Dependencies) (history : List Operation) : Dependencies :=
  history.foldl Operation.apply start

/-- The first name with some last segment that was loaded or reserved. -/
def firstClaim? (history : List Operation) (short : String) : Option String :=
  (history.filterMap Operation.claim?).find? fun name => short = Name.short name

variable {d start : Dependencies} {history : List Operation} {name short package : String}

theorem run_append (start : Dependencies) (history more : List Operation) :
    start.run (history ++ more) = (start.run history).run more :=
  List.foldl_append

theorem run_concat (start : Dependencies) (history : List Operation) (op : Operation) :
    start.run (history ++ [op]) = op.apply (start.run history) := by
  rw [run_append]
  rfl

theorem firstClaim?_append (history more : List Operation) (short : String) :
    firstClaim? (history ++ more) short =
      (firstClaim? history short).or (firstClaim? more short) := by
  unfold firstClaim?
  rw [List.filterMap_append, List.find?_append]

theorem isSome_firstClaim?_of_load (h : .load name ∈ history) :
    (firstClaim? history (Name.short name)).isSome := by
  rw [firstClaim?, List.find?_isSome]
  exact ⟨name, List.mem_filterMap.2 ⟨.load name, h, rfl⟩, by simp⟩

/-! Loaded names and owners. -/

structure Recounts (history : List Operation) (d : Dependencies) : Prop where
  ascending : d.loaded.Pairwise (· < ·)
  mem_loaded : ∀ name, name ∈ d.loaded ↔ .load name ∈ history
  owner : ∀ short, d.owner? short = firstClaim? history short

theorem recounts_clean (ignored : List IgnorePattern) : Recounts [] { ignored } where
  ascending := .nil
  mem_loaded _ := iff_of_false List.not_mem_nil List.not_mem_nil
  owner _ := rfl

theorem Recounts.concat_of_silent (h : Recounts history d) {op : Operation} {e : Dependencies}
    (silent : op.claim? = none) (loaded : e.loaded = d.loaded) (owners : e.owners = d.owners) :
    Recounts (history ++ [op]) e where
  ascending := loaded ▸ h.ascending
  mem_loaded name := by
    have hop : .load name ≠ op := by rintro rfl; exact Option.some_ne_none _ silent
    rw [loaded, h.mem_loaded, List.mem_append, List.mem_singleton, or_iff_left hop]
  owner short := by
    have hnone : firstClaim? [op] short = none := by simp [firstClaim?, silent]
    rw [firstClaim?_append, hnone, Option.or_none, ← h.owner, owner?, owner?, owners]

theorem firstClaim?_singleton {op : Operation} (h : op.claim? = some name) (short : String) :
    firstClaim? [op] short = if short = Name.short name then some name else none := by
  by_cases hs : short = Name.short name <;> simp [firstClaim?, h, hs]

theorem Recounts.load (h : Recounts history d) (name : String) :
    Recounts (history ++ [.load name]) (d.load name).2 := by
  refine ⟨?ascending, fun n => ?mem_loaded, fun short => ?owner⟩
  case ascending =>
    by_cases hl : d.isLoaded name
    · rw [load_of_loaded hl]
      exact h.ascending
    · rw [load_of_not_loaded (by simpa using hl), loaded_reserve]
      exact pairwise_insertName name h.ascending
  case mem_loaded =>
    rw [mem_loaded_load, h.mem_loaded, List.mem_append, List.mem_singleton, Operation.load.injEq]
    exact or_comm
  case owner =>
    rw [firstClaim?_append, firstClaim?_singleton rfl]
    cases hl : d.isLoaded name with
    | true =>
      -- A name that is loaded again claims nothing, but its short name has an owner by then.
      have hname : .load name ∈ history := (h.mem_loaded name).1 (by simpa [isLoaded] using hl)
      obtain ⟨owner, ho⟩ := Option.isSome_iff_exists.1 (isSome_firstClaim?_of_load hname)
      rw [load_of_loaded hl, h.owner]
      by_cases hs : short = Name.short name
      · rw [hs, ho, Option.some_or]
      · rw [if_neg hs, Option.or_none]
    | false => rw [owner?_load_of_not_loaded hl, h.owner]

theorem Recounts.reserve (h : Recounts history d) (name : String) :
    Recounts (history ++ [.reserve name]) (d.reserve name) where
  ascending := by simpa using h.ascending
  mem_loaded n := by simp [h.mem_loaded]
  owner short := by rw [firstClaim?_append, firstClaim?_singleton rfl, owner?_reserve, h.owner]

theorem Recounts.apply (h : Recounts history d) (op : Operation) :
    Recounts (history ++ [op]) (op.apply d) := by
  cases op with
  | load name => exact h.load name
  | reserve name => exact h.reserve name
  | setPackage package =>
    refine h.concat_of_silent rfl ?_ ?_ <;> simp only [Operation.apply, setPackage] <;> split <;> rfl
  | unsetPackage package =>
    refine h.concat_of_silent rfl ?_ ?_ <;> simp only [Operation.apply, unsetPackage] <;> split <;>
      rfl

theorem recounts_run (ignored : List IgnorePattern) (history : List Operation) :
    Recounts history (run { ignored } history) := by
  induction history using List.reverseRecOn with
  | nil => exact recounts_clean ignored
  | append_singleton history op ih => rw [run_concat]; exact ih.apply op

theorem Recounts.load_iff (h : Recounts history d) :
    (d.load name).1 = true ↔ .load name ∉ history := by
  rw [← h.mem_loaded]
  unfold Dependencies.load isLoaded
  split
  · next hl => simpa using hl
  · next hl => simpa using hl

theorem Recounts.conflicts_iff (h : Recounts history d) :
    d.conflicts name = true ↔
      ∃ owner, firstClaim? history (Name.short name) = some owner ∧ owner ≠ name := by
  rw [conflicts_eq_true_iff, h.owner]

/-! The package. -/

theorem setPackage_iff : (d.setPackage package).1 = true ↔ d.package = none := by
  unfold setPackage
  split <;> simp [*]

theorem unsetPackage_iff : (d.unsetPackage package).1 = true ↔ d.package = some package := by
  unfold unsetPackage
  split <;> simp [*]

theorem package_apply_eq_some_iff (op : Operation) :
    (op.apply d).package = some package ↔
      (op = .setPackage package ∧ d.package = none) ∨
        (d.package = some package ∧ op ≠ .unsetPackage package) := by
  cases op with
  | load name => simp [Operation.apply]
  | reserve name => simp [Operation.apply]
  | setPackage p =>
    cases hd : d.package <;> simp [Operation.apply, setPackage, hd]
  | unsetPackage p =>
    by_cases hp : d.package = some p
    · simp [Operation.apply, unsetPackage, hp]
    · simp only [Operation.apply, unsetPackage, hp, if_false]
      refine ⟨fun h => .inr ⟨h, ?_⟩, ?_⟩
      · rintro ⟨⟩
        exact hp h
      · rintro (⟨⟨⟩, _⟩ | ⟨h, _⟩)
        exact h

theorem package_run_iff (ignored : List IgnorePattern) (history : List Operation) :
    (run { ignored } history).package = some package ↔
      ∃ before since, history = before ++ .setPackage package :: since ∧
        (run { ignored } before).package = none ∧ .unsetPackage package ∉ since := by
  induction history using List.reverseRecOn with
  | nil => simp [run]
  | append_singleton history op ih =>
    rw [run_concat, package_apply_eq_some_iff, ih]
    constructor
    · rintro (⟨rfl, hnone⟩ | ⟨⟨before, since, rfl, hnone, hkept⟩, hop⟩)
      · exact ⟨history, [], rfl, hnone, List.not_mem_nil⟩
      · refine ⟨before, since ++ [op], by simp, hnone, ?_⟩
        rw [List.mem_append, List.mem_singleton]
        rintro (h | rfl)
        · exact hkept h
        · exact hop rfl
    · rintro ⟨before, since, heq, hnone, hkept⟩
      rcases List.eq_nil_or_concat since with rfl | ⟨since, last, rfl⟩
      · obtain ⟨rfl, hop⟩ := List.append_inj' heq rfl
        exact .inl ⟨List.singleton_inj.1 hop, hnone⟩
      · rw [List.concat_eq_append, ← List.cons_append, ← List.append_assoc] at heq
        obtain ⟨rfl, hop⟩ := List.append_inj' heq rfl
        rw [List.concat_eq_append, List.mem_append, not_or, ← List.singleton_inj.1 hop,
          List.mem_singleton] at hkept
        exact .inr ⟨⟨before, since, rfl, hnone, hkept.1⟩, fun h => hkept.2 h.symm⟩

/-! Every answer. -/

/-- What the dependencies answer after a history, by the history alone. -/
structure Accounts (start : Dependencies) (history : List Operation) : Prop where
  load : ∀ name, ((start.run history).load name).1 = true ↔ .load name ∉ history
  mem_loaded : ∀ name, name ∈ (start.run history).loaded ↔ .load name ∈ history
  ascending : (start.run history).loaded.Pairwise (Text.bytes · < Text.bytes ·)
  conflicts : ∀ name, (start.run history).conflicts name = true ↔
    ∃ owner, firstClaim? history (Name.short name) = some owner ∧ owner ≠ name
  still_conflicts : ∀ name more, (start.run history).conflicts name = true →
    (start.run (history ++ more)).conflicts name = true
  still_owns : ∀ name more, firstClaim? history (Name.short name) = some name →
    (start.run (history ++ more)).conflicts name = false
  setPackage : ∀ package,
    ((start.run history).setPackage package).1 = true ↔ (start.run history).package = none
  unsetPackage : ∀ package,
    ((start.run history).unsetPackage package).1 = true ↔
      (start.run history).package = some package
  package : ∀ package, (start.run history).package = some package ↔
    ∃ before since, history = before ++ .setPackage package :: since ∧
      ((start.run before).setPackage package).1 = true ∧ .unsetPackage package ∉ since

theorem accounts_clean (ignored : List IgnorePattern) (history : List Operation) :
    Accounts { ignored } history where
  load _ := (recounts_run ignored history).load_iff
  mem_loaded := (recounts_run ignored history).mem_loaded
  ascending := (recounts_run ignored history).ascending.imp Text.bytes_lt_of_lt
  conflicts _ := (recounts_run ignored history).conflicts_iff
  still_conflicts name more h := by
    obtain ⟨owner, ho, hne⟩ := (recounts_run ignored history).conflicts_iff.1 h
    refine (recounts_run ignored (history ++ more)).conflicts_iff.2 ⟨owner, ?_, hne⟩
    rw [firstClaim?_append, ho, Option.some_or]
  still_owns name more h := by
    rw [conflicts_eq_false_iff, (recounts_run ignored (history ++ more)).owner,
      firstClaim?_append, h, Option.some_or]
    exact fun owner ho => (Option.some.inj ho).symm
  setPackage _ := setPackage_iff
  unsetPackage _ := unsetPackage_iff
  package package := by
    rw [package_run_iff]
    simp only [setPackage_iff]

/-- A new record and a fresh one answer every history from the operations in it. -/
theorem answers_from_history (history : List Operation) :
    (∀ ignored, Accounts { ignored } history) ∧ ∀ d : Dependencies, Accounts d.fresh history :=
  ⟨fun ignored => accounts_clean ignored history, fun d => accounts_clean d.ignored history⟩

end Scribe.Dependencies
