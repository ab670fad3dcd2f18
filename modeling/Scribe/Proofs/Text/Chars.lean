import Scribe.Model.TypeDecl
import Scribe.Number.Numeral
import Scribe.Proofs.Name
import Scribe.Proofs.Text.Split
import Scribe.Text.Blank

/-!
Texts all of whose characters have some property. What is cut out of such a text, and what is put
together from such texts, has it too.
-/
namespace Scribe

namespace Text

variable {p q : Char → Prop} {a b sep text : String}

def All (p : Char → Prop) (text : String) : Prop := ∀ c ∈ text.toList, p c

instance [DecidablePred p] (text : String) : Decidable (All p text) :=
  List.decidableBAll p text.toList

theorem all_append : All p (a ++ b) ↔ All p a ∧ All p b := by
  unfold All
  rw [String.toList_append, List.forall_mem_append]

theorem all_ofList {cs : List Char} : All p (String.ofList cs) ↔ ∀ c ∈ cs, p c := by
  rw [All, String.toList_ofList]

theorem All.mono (h : All p text) (hpq : ∀ c, p c → q c) : All q text :=
  fun c hc => hpq c (h c hc)

theorem all_join {ts : List String} (h : ∀ t ∈ ts, All p t) : All p (String.join ts) := by
  intro c hc
  rw [String.toList_join, List.mem_flatMap] at hc
  obtain ⟨t, ht, hc⟩ := hc
  exact h t ht c hc

theorem all_intercalate {ts : List String} (hsep : All p sep) (h : ∀ t ∈ ts, All p t) :
    All p (sep.intercalate ts) := by
  induction ts with
  | nil => simp [All]
  | cons t ts ih =>
    obtain ⟨ht, hts⟩ := List.forall_mem_cons.1 h
    cases ts with
    | nil => rwa [String.intercalate_singleton]
    | cons next ts =>
      rw [String.intercalate_cons_cons, all_append, all_append]
      exact ⟨⟨ht, hsep⟩, ih hts⟩

theorem All.of_intercalate {ts : List String} (h : All p (sep.intercalate ts)) :
    ∀ t ∈ ts, All p t := by
  induction ts with
  | nil => exact fun _ ht => nomatch ht
  | cons t ts ih =>
    cases ts with
    | nil =>
      rw [String.intercalate_singleton] at h
      exact List.forall_mem_singleton.2 h
    | cons next ts =>
      rw [String.intercalate_cons_cons, all_append, all_append] at h
      exact List.forall_mem_cons.2 ⟨h.1.1, ih h.2⟩

theorem All.of_mem_splitOn (h : All p text) (hsep : sep ≠ "") {piece : String}
    (hpiece : piece ∈ splitOn sep text) : All p piece := by
  rw [← intercalate_splitOn hsep text] at h
  exact h.of_intercalate piece hpiece

theorem mem_splitOn_of_mem_lines {line : String} (h : line ∈ lines text) :
    line ∈ splitOn "\n" text := by
  unfold lines at h
  dsimp only at h
  split at h
  · exact List.dropLast_subset _ h
  · exact h

theorem All.of_mem_lines (h : All p text) {line : String} (hline : line ∈ lines text) :
    All p line :=
  h.of_mem_splitOn (by decide) (mem_splitOn_of_mem_lines hline)

theorem mem_of_mem_trimEndChars {cs : List Char} {c : Char} (h : c ∈ trimEndChars cs) : c ∈ cs := by
  rw [trimEndChars, List.mem_reverse] at h
  exact List.mem_reverse.1 ((List.dropWhile_sublist _).subset h)

theorem All.trimEnd (h : All p text) : All p (trimEnd text) :=
  all_ofList.2 fun c hc => h c (mem_of_mem_trimEndChars hc)

theorem All.trim (h : All p text) : All p (trim text) :=
  all_ofList.2 fun c hc => h c ((List.dropWhile_sublist _).subset (mem_of_mem_trimEndChars hc))

theorem eq_append_of_dropEnd? {ending rest : String} (h : dropEnd? ending text = some rest) :
    text = rest ++ ending := by
  unfold dropEnd? at h
  dsimp only at h
  split at h
  · next hprefix =>
    obtain ⟨cs, hcs⟩ := List.isPrefixOf_iff_prefix.1 hprefix
    obtain rfl := Option.some.inj h
    apply String.toList_inj.1
    rw [← List.reverse_inj, ← hcs, String.toList_append, String.toList_ofList]
    simp
  · exact nomatch h

theorem All.splitLast? (h : All p text) {c : Char} {before after : String}
    (hcut : splitLast? c text = some (before, after)) : All p before := by
  unfold Text.splitLast? at hcut
  rw [List.span_eq_takeWhile_dropWhile] at hcut
  cases hdrop : text.toList.reverse.dropWhile (· != c) with
  | nil => simp [hdrop] at hcut
  | cons first rest =>
    simp only [hdrop, Option.some.injEq, Prod.mk.injEq] at hcut
    obtain ⟨rfl, -⟩ := hcut
    refine all_ofList.2 fun c' hc' => h c' (List.mem_reverse.1 ?_)
    refine (List.dropWhile_sublist (· != c)).subset ?_
    rw [hdrop]
    exact List.mem_cons_of_mem _ (List.mem_reverse.1 hc')

theorem oneLine_iff_all : OneLine text ↔ All (· ≠ '\n') text :=
  ⟨fun h _ hc heq => h (heq ▸ hc), fun h hmem => h _ hmem rfl⟩

end Text

open Text (All)

variable {p : Char → Prop}

theorem Name.all_short {name : String} (h : All p name) : All p (Name.short name) :=
  fun c hc => h c (Name.mem_of_mem_short hc)

theorem File.all_package? {x : File} (h : All p x.name) (hdot : p '.') {package : String}
    (hpackage : x.package? = some package) : All p package := by
  obtain ⟨⟨before, after⟩, hcut, rfl⟩ := Option.map_eq_some_iff.1 hpackage
  have hbefore := h.splitLast? hcut
  intro c hc
  rw [String.toList_map, List.mem_map] at hc
  obtain ⟨c', hc', rfl⟩ := hc
  split
  · exact hdot
  · exact hbefore c' hc'

/-! Numbers. -/

def isPlain (c : Char) : Bool := c.isAlphanum || ['-', '.', '_', ' '].contains c

abbrev Plain (text : String) : Prop := All (fun c => isPlain c) text

theorem plain_paddedDigits (width n : Nat) : Plain (paddedDigits width n) := by
  have hdigit (c : Char) (hc : c.isDigit) : isPlain c := by simp [isPlain, Char.isAlphanum, hc]
  refine Text.all_ofList.2 fun c hc => hdigit c ?_
  rcases List.mem_append.1 hc with hc | hc
  · rw [List.eq_of_mem_replicate hc]
    decide
  · exact Nat.isDigit_of_mem_toDigits (by decide) (by decide) hc

theorem Numeral.plain_toText {plus : String} (h : Plain plus) (n : Numeral) :
    Plain (n.toText plus) := by
  unfold toText
  simp only [Plain, Text.all_append, plain_paddedDigits, and_true]
  refine ⟨⟨?sign, ?fraction⟩, ?exponent⟩
  case sign => split <;> decide
  case fraction =>
    split
    · exact Text.all_append.2 ⟨by decide, plain_paddedDigits _ _⟩
    · decide
  case exponent =>
    split
    · refine Text.all_append.2 ⟨?_, plain_paddedDigits _ _⟩
      split
      · decide
      · exact Text.all_append.2 ⟨by decide, h⟩
    · decide

end Scribe
