import Scribe.Proofs.Java.File
import Scribe.Proofs.Model.Strings
import Scribe.Proofs.Text.Chars

/-!
Where a documentation comment ends. Its text and tags are written as they are given, so that the
mark that ends comments is found in what is written exactly where it is found in them: trimming and
splitting take nothing away from the mark, and nothing that is put between lines can be part of one.
-/
namespace Scribe

namespace Text

def closeMark : List Char := ['*', '/']

/-- How many characters stand before the first mark that ends a comment. -/
def firstClose? : List Char → Option Nat
  | [] => none
  | c :: cs => if closeMark.isPrefixOf (c :: cs) then some 0 else (firstClose? cs).map (· + 1)

def Closes (text : String) : Prop := closeMark <:+: text.toList

instance (text : String) : Decidable (Closes text) := inferInstanceAs (Decidable (_ <:+: _))

def Apart (c : Char) : Prop := c ≠ '*' ∧ c ≠ '/'

instance (c : Char) : Decidable (Apart c) := inferInstanceAs (Decidable (_ ∧ _))

section

variable {a b s : List Char} {c : Char}

theorem closeMark_prefix_cons : closeMark <+: c :: a ↔ c = '*' ∧ ∃ rest, a = '/' :: rest := by
  rw [closeMark, List.cons_prefix_cons, eq_comm]
  refine and_congr_right fun _ => ?_
  cases a <;> simp [List.cons_prefix_cons, eq_comm]

theorem closeMark_infix_cons (hc : Apart c) : closeMark <:+: c :: a ↔ closeMark <:+: a := by
  simp [List.infix_cons_iff, closeMark_prefix_cons, hc.1]

theorem closeMark_infix_append_cons (hc : Apart c) :
    closeMark <:+: a ++ c :: b ↔ closeMark <:+: a ∨ closeMark <:+: b := by
  induction a with
  | nil =>
    rw [List.nil_append, closeMark_infix_cons hc, or_iff_right (by decide)]
  | cons x a ih =>
    have hbegins : closeMark <+: x :: (a ++ c :: b) ↔ closeMark <+: x :: a := by
      rw [closeMark_prefix_cons, closeMark_prefix_cons]
      cases a <;> simp [hc.2]
    rw [List.cons_append, List.infix_cons_iff, List.infix_cons_iff, ih, hbegins, or_assoc]

theorem closeMark_infix_apart_append (hs : ∀ c ∈ s, Apart c) :
    closeMark <:+: s ++ b ↔ closeMark <:+: b := by
  induction s with
  | nil => rfl
  | cons c s ih =>
    obtain ⟨hc, hs⟩ := List.forall_mem_cons.1 hs
    rw [List.cons_append, closeMark_infix_cons hc, ih hs]

theorem closeMark_infix_append_apart (hs : ∀ c ∈ s, Apart c) :
    closeMark <:+: a ++ s ↔ closeMark <:+: a := by
  cases s with
  | nil => rw [List.append_nil]
  | cons c s =>
    obtain ⟨hc, hs⟩ := List.forall_mem_cons.1 hs
    have hrest : ¬ closeMark <:+: s := by
      rw [← List.append_nil s, closeMark_infix_apart_append hs]
      decide
    rw [closeMark_infix_append_cons hc, or_iff_left hrest]

theorem firstClose?_append_iff (a : List Char) :
    firstClose? (a ++ ' ' :: closeMark) = some (a.length + 1) ↔ ¬ closeMark <:+: a := by
  induction a with
  | nil => decide
  | cons c a ih =>
    have hbegins : closeMark.isPrefixOf (c :: (a ++ ' ' :: closeMark)) ↔ closeMark <+: c :: a := by
      rw [List.isPrefixOf_iff_prefix, closeMark_prefix_cons, closeMark_prefix_cons]
      cases a <;> simp
    rw [List.cons_append, firstClose?, List.infix_cons_iff, not_or, ← ih, List.length_cons]
    split
    · next h => exact iff_of_false nofun fun hnone => hnone.1 (hbegins.1 h)
    · next h =>
      rw [and_iff_right (mt hbegins.2 h), Option.map_eq_some_iff]
      simp

end

section

variable {a b sep text : String} {ts : List String}

theorem apart_of_isBlank {c : Char} (h : isBlank c) : Apart c := by
  constructor
  · rintro rfl
    exact absurd h (by decide)
  · rintro rfl
    exact absurd h (by decide)

theorem not_closes_empty : ¬ Closes "" := by decide

/-- A text that may stand between others without making a mark with them. -/
def Parts (sep : String) : Prop := sep ≠ "" ∧ All Apart sep

theorem parts_of_eq (h : sep = "\n" ∨ sep = "\r\n") : Parts sep := by
  rcases h with rfl | rfl <;> exact ⟨by decide, by decide⟩

theorem closes_append_parts (h : Parts sep) : Closes (a ++ sep ++ b) ↔ Closes a ∨ Closes b := by
  obtain ⟨hne, hsep⟩ := h
  unfold All at hsep
  unfold Closes
  rw [String.toList_append, String.toList_append]
  cases hchars : sep.toList with
  | nil => exact absurd (String.toList_eq_nil_iff.1 hchars) hne
  | cons c s =>
    rw [hchars] at hsep
    obtain ⟨hc, hs⟩ := List.forall_mem_cons.1 hsep
    rw [List.append_assoc, List.cons_append, closeMark_infix_append_cons hc,
      closeMark_infix_apart_append hs]

theorem closes_intercalate (h : Parts sep) :
    Closes (sep.intercalate ts) ↔ ∃ t ∈ ts, Closes t := by
  induction ts with
  | nil => simpa using not_closes_empty
  | cons t ts ih =>
    cases ts with
    | nil => simp
    | cons next ts =>
      rw [String.intercalate_cons_cons, closes_append_parts h, ih]
      simp

theorem closes_filter : (∃ t ∈ ts.filter (· != ""), Closes t) ↔ ∃ t ∈ ts, Closes t := by
  constructor
  · rintro ⟨t, ht, h⟩
    exact ⟨t, List.mem_of_mem_filter ht, h⟩
  · rintro ⟨t, ht, h⟩
    refine ⟨t, List.mem_filter.2 ⟨ht, bne_iff_ne.2 ?_⟩, h⟩
    rintro rfl
    exact not_closes_empty h

theorem closes_lines : (∃ line ∈ lines text, Closes line) ↔ Closes text := by
  have hpieces := @closes_intercalate "\n" (splitOn "\n" text) (parts_of_eq (.inl rfl))
  rw [intercalate_splitOn (by decide)] at hpieces
  rw [hpieces, lines]
  split
  · next hlast =>
    conv_rhs => rw [← List.dropLast_append_getLast? "" hlast]
    simp [not_closes_empty]
  · rfl

theorem closeMark_infix_trimEndChars (cs : List Char) :
    closeMark <:+: trimEndChars cs ↔ closeMark <:+: cs := by
  have hblank : ∀ c ∈ (cs.reverse.takeWhile isBlank).reverse, Apart c := fun c hc =>
    apart_of_isBlank (List.mem_takeWhile_imp (List.mem_reverse.1 hc))
  rw [← closeMark_infix_append_apart hblank, trimEndChars, ← List.reverse_append,
    List.takeWhile_append_dropWhile, List.reverse_reverse]

theorem closes_trimEnd : Closes (trimEnd text) ↔ Closes text := by
  rw [Closes, trimEnd, String.toList_ofList, closeMark_infix_trimEndChars, Closes]

theorem closes_trim : Closes (trim text) ↔ Closes text := by
  have hblank : ∀ c ∈ text.toList.takeWhile isBlank, Apart c := fun c hc =>
    apart_of_isBlank (List.mem_takeWhile_imp hc)
  rw [Closes, trim, String.toList_ofList, closeMark_infix_trimEndChars,
    ← closeMark_infix_apart_append hblank, List.takeWhile_append_dropWhile, Closes]

end

end Text

namespace Java

open Script Text

section

variable {f : Format} {remaining : Nat} {stack : Stack} {d : Dependencies}

theorem closes_commentLine {line : String} : Closes (commentLine line) ↔ Closes line := by
  rw [← @closes_trimEnd line]
  unfold commentLine
  dsimp only
  split
  · next hempty =>
    rw [hempty]
    decide
  · unfold Closes
    rw [String.toList_append]
    exact (closeMark_infix_append_cons (a := [' ', '*']) (by decide)).trans (or_iff_right (by decide))

theorem closes_commentLines {text : String} :
    (∃ line ∈ commentLines text, Closes line) ↔ Closes text := by
  rw [← closes_lines, commentLines]
  simp [closes_commentLine]

/-- A tag closes the comment only with one of its parts: the blanks between them keep them apart. -/
theorem closes_tag (t : JavadocTag) :
    Closes (renderJavadocTag t) ↔ ∃ s ∈ (Item.javadocTag t).prose, Closes s := by
  have hname : Closes ("@" ++ t.name) ↔ Closes t.name := by
    unfold Closes
    rw [String.toList_append]
    exact closeMark_infix_cons (by decide)
  have hpart (a : String) (p : Option String) :
      Closes (a ++ (p.map (" " ++ ·)).getD "") ↔ Closes a ∨ ∃ s ∈ p.toList, Closes s := by
    cases p with
    | none => simp
    | some s =>
      have hblank : Parts " " := ⟨by decide, by decide⟩
      rw [Option.map_some, Option.getD_some, ← String.append_assoc, closes_append_parts hblank]
      simp
  unfold renderJavadocTag
  dsimp only
  rw [hpart, hpart, hname, or_assoc, Item.prose]
  simp [or_and_right, exists_or]

theorem run_tags (n : Node) (ts : List JavadocTag) :
    (texts (n.parts .tags (ts.map .javadocTag))).run ((dispatcher f).children remaining stack) d =
      (if remaining = 0 then [] else ts.map renderJavadocTag, d) := by
  rw [run_texts_of_fixed fun m hm => ?fixed]
  case fixed =>
    obtain ⟨t, _, place, rfl⟩ := mem_parts hm
    exact first_javadocTag t place
  refine congrArg (·, d) ?_
  cases remaining with
  | zero => exact List.filterMap_eq_nil_iff.2 fun _ _ => rfl
  | succ remaining =>
    rw [if_neg (Nat.succ_ne_zero remaining), filterMap_parts fun t _ place =>
      show _ = some (renderJavadocTag t) from rfl, List.filterMap_eq_map']

def openLines (j : Javadoc) (tags : List String) : List String :=
  ["/**"] ++ commentLines (trim j.text)
    ++ (if trim j.text != "" && !tags.isEmpty then [" *"] else []) ++ tags.flatMap commentLines

theorem closes_openLines (j : Javadoc) (tags : List String) :
    (∃ line ∈ openLines j tags, Closes line) ↔ Closes j.text ∨ ∃ tag ∈ tags, Closes tag := by
  have hor {l l' : List String} : (∃ line ∈ l ++ l', Closes line) ↔
      (∃ line ∈ l, Closes line) ∨ ∃ line ∈ l', Closes line := by
    simp [or_and_right, exists_or]
  have hgap {p : Prop} [Decidable p] : ¬ ∃ line ∈ (if p then [" *"] else []), Closes line := by
    split <;> decide
  have htags : (∃ line ∈ tags.flatMap commentLines, Closes line) ↔ ∃ tag ∈ tags, Closes tag := by
    constructor
    · rintro ⟨line, hline, h⟩
      obtain ⟨tag, htag, hline⟩ := List.mem_flatMap.1 hline
      exact ⟨tag, htag, closes_commentLines.1 ⟨line, hline, h⟩⟩
    · rintro ⟨tag, htag, h⟩
      obtain ⟨line, hline, h⟩ := closes_commentLines.2 h
      exact ⟨line, List.mem_flatMap.2 ⟨tag, htag, hline⟩, h⟩
  have hstart : ¬ ∃ line ∈ ["/**"], Closes line := by decide
  unfold openLines
  rw [hor, hor, hor, htags, or_iff_left hgap, or_iff_right hstart, closes_commentLines, closes_trim]

/-- A comment is closed by its last line, and it is closed by nothing before it unless its text has
the mark in it, or one of its tags, where the depth lets them be written. -/
theorem closed_at_end_iff {f : Format} (hf : f.lineTerminator = "\n" ∨ f.lineTerminator = "\r\n")
    {j : Javadoc} (hj : j.isEmpty = false) (remaining : Nat) (stack : Stack) (place : Place)
    (d : Dependencies) :
    ∃ text, (text? ⟨.javadoc j, place⟩).run ((dispatcher f).children (remaining + 1) stack) d =
        (some text, d)
      ∧ closeMark <:+ text.toList
      ∧ (firstClose? text.toList = some (text.length - 2) ↔
        ¬ Closes j.text ∧ (remaining ≠ 0 →
          ∀ t ∈ j.tags, ∀ s ∈ (Item.javadocTag t).prose, ¬ Closes s)) := by
  let tags := if remaining = 0 then [] else j.tags.map renderJavadocTag
  let opened := (openLines j tags).filter (· != "")
  let head := f.lineTerminator.intercalate opened ++ f.lineTerminator
  have hparts := parts_of_eq hf
  have hlines : f.lines (openLines j tags ++ [" */"]) = head ++ " */" := by
    have hopened : opened ≠ [] := List.ne_nil_of_mem (a := "/**")
      (List.mem_filter.2 ⟨by simp [openLines], rfl⟩)
    unfold Format.lines Format.join
    rw [List.filter_append]
    exact String.intercalate_append_of_ne_nil hopened (List.cons_ne_nil _ _)
  have hrun : (text? ⟨.javadoc j, place⟩).run ((dispatcher f).children (remaining + 1) stack) d =
      (some (head ++ " */"), d) := by
    rw [run_text?_succ, script_javadoc]
    unfold renderJavadoc
    rw [if_neg (by simp [hj]), run_monadBind, run_tags, ← hlines]
    rfl
  have hhead : Closes head ↔ Closes j.text ∨ ∃ tag ∈ tags, Closes tag := by
    have hempty := closes_append_parts (a := f.lineTerminator.intercalate opened) (b := "") hparts
    rw [String.append_empty, or_iff_left not_closes_empty] at hempty
    rw [hempty, closes_intercalate hparts, closes_filter, closes_openLines]
  refine ⟨head ++ " */", hrun, ?ends, ?first⟩
  case ends =>
    rw [String.toList_append]
    exact ⟨head.toList ++ [' '], by simp [closeMark]⟩
  case first =>
    have hmark : (∃ tag ∈ tags, Closes tag) ↔
        remaining ≠ 0 ∧ ∃ t ∈ j.tags, ∃ s ∈ (Item.javadocTag t).prose, Closes s := by
      cases remaining with
      | zero => simp [tags]
      | succ remaining => simp [tags, closes_tag]
    have hlength : (head ++ " */").length - 2 = head.toList.length + 1 := by
      rw [String.length_append, String.length_toList]
      rfl
    rw [hlength, String.toList_append]
    refine (firstClose?_append_iff head.toList).trans ((not_congr hhead).trans ?_)
    simp only [hmark, not_or, not_and, not_exists]

end

theorem closed_at_end_remark :
    let remark : Javadoc := { text := "x */ y" }
    let text := "/**\n * x */ y\n */"
    (({} : Format).lineTerminator = "\n" ∨ ({} : Format).lineTerminator = "\r\n")
      ∧ remark.isEmpty = false
      ∧ (text? ⟨.javadoc remark, []⟩).run ((dispatcher {}).children 2 {}) {} = (some text, {})
      ∧ closeMark <:+ text.toList ∧ firstClose? text.toList ≠ some (text.length - 2)
      ∧ firstClose? text.toList = some 9 := by
  intro remark text
  have hf : ({} : Format).lineTerminator = "\n" ∨ ({} : Format).lineTerminator = "\r\n" := .inl rfl
  have hremark : remark.isEmpty = false := by decide +kernel
  have hrun : (text? ⟨.javadoc remark, []⟩).run ((dispatcher {}).children 2 {}) {} =
      (some text, {}) := by decide +kernel
  obtain ⟨text', hrun', hends, hfirst⟩ := closed_at_end_iff hf hremark 1 {} [] {}
  obtain rfl : text = text' := Option.some.inj (congrArg Prod.fst (hrun.symm.trans hrun'))
  exact ⟨hf, hremark, hrun, hends, fun h => absurd (hfirst.1 h).1 (by decide), by decide⟩

end Java

end Scribe
