import Scribe.Name
import Scribe.Proofs.Text.Split
import Mathlib.Data.List.TakeDrop
import Mathlib.Data.List.TakeWhile

/-!
Short names, dotted names and the characters of valid names.
-/
namespace Scribe.Name

theorem toList_short (name : String) :
    (short name).toList = (name.toList.reverse.takeWhile (· != '.')).reverse := by
  unfold short Text.splitLast?
  rw [List.span_eq_takeWhile_dropWhile]
  have hsplit := List.takeWhile_append_dropWhile (p := (· != '.')) (l := name.toList.reverse)
  cases hdrop : name.toList.reverse.dropWhile (· != '.') with
  | nil =>
    rw [hdrop, List.append_nil] at hsplit
    rw [hsplit, List.reverse_reverse]
  | cons c cs => exact String.toList_ofList

theorem dot_notMem_short (name : String) : '.' ∉ (short name).toList := by
  rw [toList_short, List.mem_reverse]
  intro h
  exact absurd (List.mem_takeWhile_imp h) (by decide)

theorem short_eq_self {name : String} (h : '.' ∉ name.toList) : short name = name := by
  apply String.toList_inj.1
  rw [toList_short, List.takeWhile_eq_self_iff.2, List.reverse_reverse]
  intro c hc
  exact bne_iff_ne.2 fun heq => h (heq ▸ List.mem_reverse.1 hc)

theorem short_ne_self {name : String} (h : '.' ∈ name.toList) : short name ≠ name := by
  intro heq
  rw [← heq] at h
  exact dot_notMem_short name h

theorem short_short (name : String) : short (short name) = short name :=
  short_eq_self (dot_notMem_short name)

theorem mem_of_mem_short {name : String} {c : Char} (h : c ∈ (short name).toList) :
    c ∈ name.toList := by
  rw [toList_short, List.mem_reverse] at h
  exact List.mem_reverse.1 (List.takeWhile_subset _ h)

/-! The characters of valid names. -/

theorem cut_dot (piece cs : List Char) :
    Text.cut ['.'] 0 piece [] ('.' :: cs) = piece.reverse :: Text.cut ['.'] 0 [] [] cs := by
  have hprefix : ['.'].isPrefixOf ('.' :: cs) = true := rfl
  rw [Text.cut, if_pos hprefix, Text.cut_eq_append]
  rfl

theorem cut_of_ne_dot {c : Char} (h : c ≠ '.') (piece cs : List Char) :
    Text.cut ['.'] 0 piece [] (c :: cs) = Text.cut ['.'] 0 (c :: piece) [] cs := by
  have hprefix : ¬ ['.'].isPrefixOf (c :: cs) = true := by
    simpa [List.isPrefixOf] using Ne.symm h
  rw [Text.cut, if_neg hprefix]

theorem mem_cut_dot {c : Char} {piece cs : List Char} (h : c ∈ piece ∨ c ∈ cs) :
    c = '.' ∨ ∃ p ∈ Text.cut ['.'] 0 piece [] cs, c ∈ p := by
  induction cs generalizing piece with
  | nil => exact .inr ⟨piece.reverse, by simp [Text.cut], by simpa using h⟩
  | cons c' cs ih =>
    rw [List.mem_cons] at h
    by_cases hdot : c' = '.'
    · subst hdot
      rw [cut_dot]
      rcases h with h | rfl | h
      · exact .inr ⟨piece.reverse, List.mem_cons_self, List.mem_reverse.2 h⟩
      · exact .inl rfl
      · rcases @ih [] (.inr h) with hc | ⟨p, hp, hc⟩
        · exact .inl hc
        · exact .inr ⟨p, List.mem_cons_of_mem _ hp, hc⟩
    · rw [cut_of_ne_dot hdot]
      apply ih
      rw [List.mem_cons]
      rcases h with h | h | h
      · exact .inl (.inr h)
      · exact .inl (.inl h)
      · exact .inr h

theorem continues_of_starts {c : Char} (h : startsIdentifier c) : continuesIdentifier c := by
  unfold startsIdentifier at h
  unfold continuesIdentifier
  simp only [Bool.or_eq_true] at h ⊢
  exact h.imp_left (·.imp_left .inl)

theorem continuesMarkup_of_starts {c : Char} (h : startsMarkup c) : continuesMarkup c := by
  unfold startsMarkup at h
  unfold continuesMarkup
  simp only [Bool.or_eq_true] at h ⊢
  rcases h with halphabetic | hunderscore
  · simp [halphabetic]
  · simp [hunderscore]

theorem continues_of_mem (starts continues : Char → Bool)
    (hstarts : ∀ {c}, starts c → continues c) {c' : Char} {cs : List Char}
    (h : starts c' && cs.all continues) {c : Char} (hc : c ∈ c' :: cs) : continues c := by
  rw [Bool.and_eq_true, List.all_eq_true] at h
  rcases List.mem_cons.1 hc with rfl | hc
  · exact hstarts h.1
  · exact h.2 c hc

theorem continues_of_isIdentifier {name : String} (h : isIdentifier name) {c : Char}
    (hc : c ∈ name.toList) : continuesIdentifier c := by
  unfold isIdentifier at h
  cases hname : name.toList with
  | nil => exact nomatch hname ▸ hc
  | cons c' cs =>
    rw [hname] at h hc
    exact continues_of_mem startsIdentifier continuesIdentifier continues_of_starts h hc

theorem continues_of_isQualified {name : String} (h : isQualified name) {c : Char}
    (hc : c ∈ name.toList) : c = '.' ∨ continuesIdentifier c := by
  refine (@mem_cut_dot c [] name.toList (.inr hc)).imp_right fun ⟨p, hp, hcp⟩ => ?_
  unfold isQualified Text.splitOn at h
  rw [if_neg (by decide), List.all_map, List.all_eq_true] at h
  exact continues_of_isIdentifier (h p hp) (String.toList_ofList.symm ▸ hcp)

/-- A dotted name: one or more identifiers with dots between them. -/
def Dotted (name : String) : Prop :=
  ∃ segments : List String, segments ≠ [] ∧ (∀ s ∈ segments, isIdentifier s)
    ∧ name = ".".intercalate segments

theorem dot_notMem_of_isIdentifier {name : String} (h : isIdentifier name) : '.' ∉ name.toList :=
  fun hmem => absurd (continues_of_isIdentifier h hmem) (by decide +kernel)

theorem splitOn_dot_intercalate {segments : List String} (hne : segments ≠ [])
    (h : ∀ s ∈ segments, isIdentifier s) :
    Text.splitOn "." (".".intercalate segments) = segments :=
  Text.splitOn_intercalate_of_notMem List.not_mem_nil rfl hne fun s hs =>
    dot_notMem_of_isIdentifier (h s hs)

theorem isQualified_iff {name : String} : isQualified name ↔ Dotted name := by
  unfold isQualified
  rw [List.all_eq_true]
  constructor
  · intro h
    exact ⟨Text.splitOn "." name, Text.splitOn_ne_nil (by decide) name, h,
      (Text.intercalate_splitOn (by decide) name).symm⟩
  · rintro ⟨segments, hne, h, rfl⟩
    rwa [splitOn_dot_intercalate hne h]

theorem continues_of_isMarkup {name : String} (h : isMarkup name) {c : Char}
    (hc : c ∈ name.toList) : continuesMarkup c := by
  unfold isMarkup at h
  cases hname : name.toList with
  | nil => exact nomatch hname ▸ hc
  | cons c' cs =>
    rw [hname] at h hc
    exact continues_of_mem startsMarkup continuesMarkup continuesMarkup_of_starts h hc

theorem ne_bracket_of_isQualified {name : String} (h : isQualified name) {c : Char}
    (hc : c ∈ name.toList) : c ≠ '<' ∧ c ≠ '[' := by
  have hlt : ¬ ('<' = '.' ∨ continuesIdentifier '<') := by decide +kernel
  have hbracket : ¬ ('[' = '.' ∨ continuesIdentifier '[') := by decide +kernel
  have hvalid := continues_of_isQualified h hc
  exact ⟨fun heq => hlt (heq ▸ hvalid), fun heq => hbracket (heq ▸ hvalid)⟩

end Scribe.Name
