import Scribe.Proofs.Render.Dependencies

/-!
What a reference does to the dependencies. Short names go to the first who refers to them, so the
owner of one is found among the names in their order, and a name is written short exactly as long
as no other name owns its short form.
-/
namespace Scribe.Dependencies

variable {d e : Dependencies} {name short : String} {names : List String}

/-- Whether an import of a name would be written. -/
def wanted (d : Dependencies) (name : String) : Bool := !(d.ignores name || d.isSamePackage name)

def spelling (d : Dependencies) (name : String) : String :=
  if d.conflicts name then name else Name.short name

/-- What a reference leaves behind. -/
def refer (d : Dependencies) (name : String) : Dependencies :=
  if d.conflicts name then d
  else if d.ignores name || d.isSamePackage name then d.reserve name
  else (d.load name).2

theorem steps_refer (d : Dependencies) (name : String) : Steps d (d.refer name) := by
  unfold refer
  split
  · exact .refl
  · next free =>
    split
    · exact .single (.reserve d name)
    · next wanted =>
      simp only [Bool.not_eq_true, Bool.or_eq_false_iff] at free wanted
      exact .single (.load d name wanted.1 wanted.2 free)

theorem steps_foldl {op : Dependencies → String → Dependencies} (h : ∀ d name, Steps d (op d name))
    (d : Dependencies) (names : List String) : Steps d (names.foldl op d) := by
  induction names generalizing d with
  | nil => exact .refl
  | cons name names ih => exact (h d name).trans (ih _)

theorem steps_reserve_foldl (d : Dependencies) (names : List String) :
    Steps d (names.foldl reserve d) :=
  steps_foldl (fun d name => .single (.reserve d name)) d names

theorem steps_refer_foldl (d : Dependencies) (names : List String) :
    Steps d (names.foldl refer d) :=
  steps_foldl steps_refer d names

theorem wanted_steps (h : Steps d e) : e.wanted = d.wanted := by
  funext name
  unfold wanted
  rw [ignores_steps h, isSamePackage_steps h]

theorem refer_of_wanted (h : d.wanted name) :
    d.refer name = if d.conflicts name then d else (d.load name).2 := by
  rw [wanted, Bool.not_eq_true'] at h
  rw [refer, h]
  rfl

/-! Owners. -/

/-- Operations of which each gives a short name to its name if nobody has it: then the owner is the
first name with that short form. -/
theorem owner?_foldl {op : Dependencies → String → Dependencies} {P : Dependencies → Prop}
    (hkeeps : ∀ d name, P d → P (op d name))
    (hgives : ∀ d, P d → ∀ name short, (op d name).owner? short =
      (d.owner? short).or (if short = Name.short name then some name else none))
    (h : P d) (names : List String) (short : String) :
    (names.foldl op d).owner? short =
      (d.owner? short).or (names.find? fun name => short = Name.short name) := by
  induction names generalizing d with
  | nil => rw [List.foldl_nil, List.find?_nil, Option.or_none]
  | cons name names ih =>
    rw [List.foldl_cons, ih (hkeeps d name h), hgives d h, Option.or_assoc, List.find?_cons]
    by_cases hs : short = Name.short name <;> simp [hs]

theorem owner?_reserve_foldl (d : Dependencies) (names : List String) (short : String) :
    (names.foldl reserve d).owner? short =
      (d.owner? short).or (names.find? fun name => short = Name.short name) :=
  owner?_foldl (P := fun _ => True) (fun _ _ => id) (fun d _ => owner?_reserve d) trivial names short

theorem owner?_refer (h : d.Claimed) (name short : String) :
    (d.refer name).owner? short =
      (d.owner? short).or (if short = Name.short name then some name else none) := by
  have owned (ho : ∃ owner, d.owner? (Name.short name) = some owner) :
      d.owner? short = (d.owner? short).or (if short = Name.short name then some name else none) := by
    obtain ⟨owner, ho⟩ := ho
    by_cases hs : short = Name.short name
    · rw [hs, ho, Option.some_or]
    · rw [if_neg hs, Option.or_none]
  unfold refer
  cases hc : d.conflicts name with
  | true =>
    obtain ⟨owner, ho, _⟩ := conflicts_eq_true_iff.1 hc
    exact owned ⟨owner, ho⟩
  | false =>
    simp only [Bool.false_eq_true, ↓reduceIte]
    split
    · exact owner?_reserve d name short
    · cases hl : d.isLoaded name with
      | true =>
        rw [load_of_loaded hl]
        exact owned (Option.isSome_iff_exists.1 (h name (by simpa [isLoaded] using hl)))
      | false => exact owner?_load_of_not_loaded hl short

theorem owner?_refer_foldl (h : d.Claimed) (names : List String) (short : String) :
    (names.foldl refer d).owner? short =
      (d.owner? short).or (names.find? fun name => short = Name.short name) :=
  owner?_foldl (fun d name h => h.steps (steps_refer d name)) (fun _ => owner?_refer) h names short

theorem owner?_refer_self (h : d.Claimed) (free : d.conflicts name = false) :
    (d.refer name).owner? (Name.short name) = some name := by
  rw [owner?_refer h, if_pos rfl]
  cases ho : d.owner? (Name.short name) with
  | none => rfl
  | some owner => rw [conflicts_eq_false_iff.1 free owner ho, Option.some_or]

/-! Loaded names. -/

theorem mem_loaded_refer {n : String} (h : n ∈ (d.refer name).loaded) :
    n = name ∨ n ∈ d.loaded := by
  unfold refer at h
  split at h
  · exact .inr h
  · split at h
    · rw [loaded_reserve] at h
      exact .inr h
    · exact mem_loaded_load.1 h

theorem mem_of_mem_loaded_refer_foldl {n : String} (h : n ∈ (names.foldl refer d).loaded) :
    n ∈ names ∨ n ∈ d.loaded := by
  induction names generalizing d with
  | nil => exact .inr h
  | cons name names ih =>
    rcases ih h with hn | hn
    · exact .inl (List.mem_cons_of_mem name hn)
    · rcases mem_loaded_refer hn with rfl | hn
      · exact .inl List.mem_cons_self
      · exact .inr hn

theorem loaded_reserve_foldl (d : Dependencies) (names : List String) :
    (names.foldl reserve d).loaded = d.loaded := by
  induction names generalizing d with
  | nil => rfl
  | cons name names ih => rw [List.foldl_cons, ih, loaded_reserve]

theorem mem_loaded_refer_self (free : d.conflicts name = false) (h : d.wanted name) :
    name ∈ (d.refer name).loaded := by
  rw [refer_of_wanted h, if_neg (by simp [free])]
  exact mem_loaded_load.2 (.inl rfl)

end Scribe.Dependencies
