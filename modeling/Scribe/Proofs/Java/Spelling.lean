import Scribe.Proofs.Java.References

/-!
A name is written in one way throughout a file. Two valid names are written alike only if one of
them has no package and the other has its short form: there is no longer way to write a name that
has no package, so another type of that name hides it.
-/
namespace Scribe

namespace Visit

/-- The text of a type without its arguments and brackets. -/
def base? (v : Visit) : Option String :=
  v.text.map fun text => String.ofList (text.toList.takeWhile fun c => c != '<' && c != '[')

end Visit

namespace Java

variable {ignored : List IgnorePattern} {f : Format} {remaining : Nat} {stack : Stack}
  {d : Dependencies} {x : File} {place : Place} {v : Visit} {name : String}

theorem takeWhile_times (n : Nat) :
    (Text.times n "[]").toList.takeWhile (fun c => c != '<' && c != '[') = [] := by
  cases n with
  | zero => rfl
  | succ n =>
    unfold Text.times
    rw [List.replicate_succ, String.join_cons, String.toList_append]
    rfl

theorem takeWhile_typeTail (t : TypeRef) (arguments : List String) :
    (typeTail t arguments).toList.takeWhile (fun c => c != '<' && c != '[') = [] := by
  unfold typeTail
  split
  · rw [String.empty_append]
    exact takeWhile_times _
  · simp only [String.toList_append]
    rfl

theorem base?_of_writes {t : TypeRef} {form : String} (h : v.Writes t form)
    (hform : ∀ c ∈ form.toList, c ≠ '<' ∧ c ≠ '[') : v.base? = some form := by
  have hkeep : ∀ c ∈ form.toList, (c != '<' && c != '[') = true := by
    intro c hc
    rw [Bool.and_eq_true, bne_iff_ne, bne_iff_ne]
    exact hform c hc
  unfold Visit.base?
  rw [h, Option.map_some, String.toList_append, List.takeWhile_append_of_pos hkeep,
    takeWhile_typeTail, List.append_nil, String.ofList_toList]

/-! Owners at the end of a file. -/

theorem owner?_settled (h : d.Consistent) (short : String) :
    (settled f remaining stack x place d).owner? short = (d.owner? short).or
      ((x.claimants d ++ (body f remaining stack x place d).filterMap (·.reference?)).find?
        fun name => short = Name.short name) := by
  have hopened : (x.opened d).Consistent := (h.enter x.package?).steps (x.steps_opened d)
  rw [(chain_body f remaining stack x place d).eq_foldl,
    Dependencies.owner?_refer_foldl hopened.claimed, owner?_opened h, Option.or_assoc, List.find?_append]

/-- A name is written short throughout a file if it owns its short form at the end, and otherwise
it is written in full throughout. -/
theorem spelling_eq (h : d.Consistent) (hv : v ∈ body f remaining stack x place d)
    (href : v.reference? = some name) :
    v.before.spelling name =
      if (settled f remaining stack x place d).owner? (Name.short name) = some name then
        Name.short name
      else name := by
  have hsteps := (chain_body f remaining stack x place d).steps_before hv
  have hbefore : v.before.Consistent :=
    (h.enter x.package?).steps ((x.steps_opened d).trans hsteps.1)
  have hafter : Dependencies.Steps (v.before.refer name) (settled f remaining stack x place d) := by
    have heffect := hsteps.2
    rwa [Visit.effect, href] at heffect
  unfold Dependencies.spelling
  cases hconflicts : v.before.conflicts name with
  | true =>
    obtain ⟨owner, howner, hne⟩ := Dependencies.conflicts_eq_true_iff.1 hconflicts
    have hfinal := Dependencies.owner?_steps ((v.before.steps_refer name).trans hafter) howner
    rw [if_pos rfl, hfinal, if_neg (fun heq => hne (Option.some.inj heq))]
  | false =>
    have hfinal := Dependencies.owner?_steps hafter
      (Dependencies.owner?_refer_self hbefore.claimed hconflicts)
    rw [if_pos hfinal]
    rfl

theorem base?_eq (h : d.Consistent) (hv : v ∈ body f remaining stack x place d)
    (href : v.reference? = some name) (hname : Name.isQualified name) :
    v.base? = some
      (if (settled f remaining stack x place d).owner? (Name.short name) = some name then
        Name.short name
      else name) := by
  have hchars := fun c => @Name.ne_bracket_of_isQualified name hname c
  unfold Visit.reference? at href
  split at href
  · next t hitem =>
    obtain rfl := Option.some.inj href
    rw [← spelling_eq h hv (Visit.reference?_of_item hitem)]
    apply base?_of_writes (writes_spelling hv hitem)
    intro c hc
    unfold Dependencies.spelling at hc
    split at hc
    · exact hchars c hc
    · exact hchars c (Name.mem_of_mem_short hc)
  · exact nomatch href

theorem spelled_alike_iff {owner? : String → Option String} {a b : String} (hne : a ≠ b) :
    ((if owner? (Name.short a) = some a then Name.short a else a) =
        if owner? (Name.short b) = some b then Name.short b else b) ↔
      (b = Name.short a ∧ owner? b = some a) ∨ (a = Name.short b ∧ owner? a = some b) := by
  constructor
  · intro heq
    split at heq <;> split at heq
    · next ha hb =>
      rw [heq, hb] at ha
      exact absurd (Option.some.inj ha).symm hne
    · next ha _ => exact .inl ⟨heq.symm, heq ▸ ha⟩
    · next hb => exact .inr ⟨heq, heq ▸ hb⟩
    · exact absurd heq hne
  · rintro (⟨rfl, hb⟩ | ⟨rfl, ha⟩)
    · rw [if_pos hb, Name.short_short, ite_self]
    · rw [if_pos ha, Name.short_short, ite_self]

/-- The first of the names that a file declares, imports and refers to, in this order, that has
some short form. -/
def firstClaimant? (ignored : List IgnorePattern) (x : File) (trace : List Visit)
    (short : String) : Option String :=
  (x.claimants { ignored } ++ trace.filterMap (·.reference?)).find? fun name =>
    short = Name.short name

/-- Two names in a file that is rendered from nothing used are written alike exactly if one of them
has no package, is the short form of the other, and the other is the first to claim it. -/
theorem base?_eq_iff (ignored : List IgnorePattern) (f : Format) (maxDepth : Nat) (x : File)
    (place : Place) {v w : Visit} {a b : String}
    (hv : v ∈ (session ignored f maxDepth).visits ⟨.file x, place⟩)
    (hw : w ∈ (session ignored f maxDepth).visits ⟨.file x, place⟩)
    (hva : v.reference? = some a) (hwb : w.reference? = some b)
    (ha : Name.isQualified a) (hb : Name.isQualified b) (hne : a ≠ b) :
    let first? := firstClaimant? ignored x ((session ignored f maxDepth).visits ⟨.file x, place⟩)
    v.base?.isSome ∧ w.base?.isSome
      ∧ (v.base? = w.base? ↔
        (b = Name.short a ∧ first? b = some a) ∨ (a = Name.short b ∧ first? a = some b)) := by
  cases maxDepth with
  | zero => exact nomatch hv
  | succ remaining =>
    have hclean := Dependencies.consistent_clean ignored
    rw [visits_session] at hv hw ⊢
    have hv : v ∈ body f remaining {} x place { ignored } := by
      rcases List.mem_cons.1 hv with rfl | hv
      · exact nomatch hva
      · exact hv
    have hw : w ∈ body f remaining {} x place { ignored } := by
      rcases List.mem_cons.1 hw with rfl | hw
      · exact nomatch hwb
      · exact hw
    rw [base?_eq hclean hv hva ha, base?_eq hclean hw hwb hb]
    refine ⟨rfl, rfl, ?_⟩
    rw [Option.some_inj, spelled_alike_iff hne, owner?_settled hclean, owner?_settled hclean]
    rfl

def box : File where
  name := "Box.java"
  classes := [.classDecl
    { name := "Box"
      generics := [.ofName "T"]
      fields :=
        [{ name := "first", type := .ofName "org.other.T" },
          { name := "second", type := .ofName "T" }] }]

theorem base?_eq_box :
    let trace := (session ignorePatterns {} Generator.defaultMaxDepth).visits ⟨.file box, []⟩
    ∃ v ∈ trace, ∃ w ∈ trace, v.reference? = some "org.other.T" ∧ w.reference? = some "T"
      ∧ v.base? = w.base? := by
  intro trace
  have hnames : trace.filterMap (·.reference?) = ["org.other.T", "T"] := by decide +kernel
  obtain ⟨v, hv, hva⟩ := List.mem_filterMap.1
    (show "org.other.T" ∈ trace.filterMap (·.reference?) by rw [hnames]; decide)
  obtain ⟨w, hw, hwb⟩ := List.mem_filterMap.1
    (show "T" ∈ trace.filterMap (·.reference?) by rw [hnames]; decide)
  have hfirst : firstClaimant? ignorePatterns box trace "T" = some "org.other.T" := by
    unfold firstClaimant?
    rw [hnames]
    decide +kernel
  have halike := base?_eq_iff ignorePatterns {} Generator.defaultMaxDepth box [] hv hw hva hwb
    (by decide +kernel) (by decide +kernel) (by decide)
  exact ⟨v, hv, w, hw, hva, hwb, halike.2.2.2 (.inl ⟨by decide +kernel, hfirst⟩)⟩

end Java

end Scribe
