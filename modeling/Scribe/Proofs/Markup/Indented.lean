import Scribe.Proofs.Layout.Margin
import Scribe.Proofs.Markup.Mark
import Scribe.Proofs.Markup.Structure

/-!
Marks in lines that have been indented. A margin stands before a mark or within its values, so the
mark is found again with the same outline; it makes no difference whether a value is escaped before
it is indented or after.
-/
namespace Scribe

/-- A value of an attribute or a text in a tag that stands in so many others. -/
def indented (depth : Nat) (value : String) : String :=
  Text.shifted (Text.times depth Format.standard.indentUnit) value

theorem indented_eq_self_iff {depth : Nat} {value : String} :
    indented depth value = value ↔ depth = 0 ∨ Text.OneLine value := by
  rw [indented, Text.shifted_eq_self_iff]
  refine or_congr_left ?_
  cases depth with
  | zero => exact iff_of_true rfl rfl
  | succ depth =>
    refine iff_of_false (fun hempty => ?_) (Nat.succ_ne_zero depth)
    rw [Text.times_succ, String.append_eq_empty_iff] at hempty
    exact absurd hempty.1 (by decide)

namespace Attribute

def indented (depth : Nat) (a : Attribute) : Attribute :=
  { a with value := a.value.map (Scribe.indented depth) }

def outline (a : Attribute) : String :=
  match a.value with
  | some _ => a.name ++ "="
  | none => a.name

end Attribute

namespace Markup

open Scanner
open Text (inset)

/-! Margins. -/

def margin (depth : Nat) : List Char := (Text.times depth Format.standard.indentUnit).toList

theorem margin_succ (depth : Nat) :
    margin (depth + 1) = margin depth ++ Format.standard.indentUnit.toList := by
  unfold margin Text.times
  rw [List.replicate_succ', String.join_append, String.toList_append]
  simp [String.join_cons, String.join_nil]

theorem eq_of_mem_margin {depth : Nat} {c : Char} (h : c ∈ margin depth) : c = ' ' := by
  induction depth with
  | zero => exact nomatch h
  | succ depth ih =>
    rw [margin_succ, List.mem_append] at h
    rcases h with h | h
    · exact ih h
    · have hunit : Format.standard.indentUnit.toList = List.replicate 4 ' ' := rfl
      rw [hunit] at h
      exact List.eq_of_mem_replicate h

theorem escapeChar_ne_nil (c : Char) : escapeChar c ≠ [] := by
  unfold escapeChar
  split <;> exact List.cons_ne_nil _ _

theorem newline_notMem_escapeChar {c : Char} (h : c ≠ '\n') : '\n' ∉ escapeChar c := by
  unfold escapeChar
  split
  case h_5 => exact fun hmem => h (List.mem_singleton.1 hmem).symm
  all_goals decide

/-- It makes no difference whether a value is escaped before it is indented. -/
theorem toList_escape_indented (depth : Nat) (value : String) :
    (escape (indented depth value)).toList =
      Text.shift (margin depth) (escape value).toList := by
  have hmargin : (margin depth).flatMap escapeChar = margin depth := by
    have hchar : ∀ c ∈ margin depth, escapeChar c = [c] := fun c hc => by
      rw [eq_of_mem_margin hc]
      rfl
    rw [List.flatMap_congr hchar, List.flatMap_singleton']
  simp only [escape, Text.toList_substitute, indented, Text.shifted, String.toList_ofList]
  exact (Text.shift_flatMap hmargin rfl
    (fun c hc => ⟨escapeChar_ne_nil c, newline_notMem_escapeChar hc⟩) value.toList).symm

/-! Marks. -/

/-- What stands in a mark outside quotes, but for its end. -/
abbrev Bare (cs : List Char) : Prop := '\n' ∉ cs ∧ '"' ∉ cs ∧ '>' ∉ cs

theorem bare_of_isMarkup {name : String} (h : Name.isMarkup name) : Bare name.toList := by
  have hnone {c : Char} (hc : isNameChar c = false) : c ∉ name.toList := fun hmem =>
    Reader.ne_of_isNameChar (isNameChar_of_isMarkup h c hmem) hc rfl
  exact ⟨hnone (by decide), hnone (by decide), hnone (by decide)⟩

def Ends (ending : String) : Prop := ∃ init, Bare init ∧ ending.toList = init ++ ['>']

def markText (name : String) (attributes : List Attribute) (ending : String) : String :=
  "<" ++ name ++ String.join (attributes.map (" " ++ renderAttribute ·)) ++ ending

def outlineText (name : String) (attributes : List Attribute) (ending : String) : String :=
  "<" ++ name ++ String.join (attributes.map (" " ++ ·.outline)) ++ ending

theorem markText_closing (name : String) : markText ("/" ++ name) [] ">" = "</" ++ name ++ ">" := by
  simp [markText, String.join_nil, ← String.append_assoc]

section

variable {depth : Nat} {name ending : String} {attributes : List Attribute}

theorem inset_renderAttribute {a : Attribute} (ha : Name.isMarkup a.name) (rest : List Char) :
    inset (margin depth) false ((renderAttribute a).toList ++ rest) =
      (renderAttribute (a.indented depth)).toList ++ inset (margin depth) false rest := by
  have hname := (bare_of_isMarkup ha).1
  obtain ⟨name, value⟩ := a
  cases value with
  | none => exact Text.inset_line _ hname rest
  | some value =>
    have hquote : "\"".toList = ['"'] := rfl
    have hequals : "=".toList = ['='] := rfl
    have hlead : '\n' ∉ name.toList ++ ['=', '"'] := by
      rw [List.mem_append]
      exact not_or.2 ⟨hname, by decide⟩
    have hmark : '\n' ∉ ['"'] := by decide
    have htail : inset (margin depth) false ('"' :: rest) = '"' :: inset (margin depth) false rest :=
      Text.inset_line (margin depth) hmark rest
    have hvalue := Text.inset_line (margin depth) hlead ((escape value).toList ++ '"' :: rest)
    rw [Text.inset_piece (by decide), htail, ← toList_escape_indented] at hvalue
    simpa [renderAttribute, Attribute.indented, quoted, String.toList_append, hquote, hequals]
      using hvalue

theorem inset_attributes (h : ∀ a ∈ attributes, Name.isMarkup a.name) (rest : List Char) :
    inset (margin depth) false
        ((String.join (attributes.map (" " ++ renderAttribute ·))).toList ++ rest) =
      (String.join ((attributes.map (·.indented depth)).map (" " ++ renderAttribute ·))).toList
        ++ inset (margin depth) false rest := by
  induction attributes with
  | nil => rfl
  | cons a attributes ih =>
    obtain ⟨ha, hrest⟩ := List.forall_mem_cons.1 h
    simp only [List.map_cons, String.join_cons, String.toList_append, List.append_assoc]
    rw [Text.inset_line _ (by decide), inset_renderAttribute ha, ih hrest]

theorem inset_markText (depth : Nat) (hname : '\n' ∉ name.toList)
    (h : ∀ a ∈ attributes, Name.isMarkup a.name) (hending : Ends ending) (rest : List Char) :
    inset (margin depth) true ((markText name attributes ending).toList ++ rest) =
      margin depth ++ (markText name (attributes.map (·.indented depth)) ending).toList
        ++ inset (margin depth) false rest := by
  obtain ⟨init, hinit, heq⟩ := hending
  have hline : '\n' ∉ ending.toList := by
    rw [heq, List.mem_append]
    exact not_or.2 ⟨hinit.1, by decide⟩
  have hless : "<".toList = ['<'] := rfl
  have hopen : '\n' ∉ '<' :: name.toList := List.mem_cons.not.2 (not_or.2 ⟨by decide, hname⟩)
  simp only [markText, String.toList_append, List.append_assoc, hless, List.singleton_append]
  rw [List.cons_append, Text.inset_fresh (by decide), ← List.cons_append, Text.inset_line _ hopen,
    inset_attributes h, Text.inset_line _ hline]

theorem run_renderAttribute {a : Attribute} (ha : Name.isMarkup a.name)
    (before outline : List Char) (values : List String) :
    (mark before outline values).run (" " ++ renderAttribute a).toList =
      (mark before (outline ++ (" " ++ a.outline).toList)
        (values ++ (a.value.map escape).toList), []) := by
  obtain ⟨-, hquote, hend⟩ := bare_of_isMarkup ha
  obtain ⟨name, value⟩ := a
  have hname (last : List Char) (hlast : Bare last) :
      (mark before outline values).run (' ' :: name.toList ++ last) =
        (mark before (outline ++ (' ' :: name.toList ++ last)) values, []) := by
    apply run_outline
    · simp [hquote, hlast.2.1]
    · simp [hend, hlast.2.2]
  have hspace : " ".toList = [' '] := rfl
  cases value with
  | none =>
    have hrun := hname [] ⟨nofun, nofun, nofun⟩
    simpa [renderAttribute, Attribute.outline, hspace] using hrun
  | some value =>
    have hescaped : '"' ∉ (escape value).toList := fun hmem => (ne_of_mem_escape hmem).2.2 rfl
    have hequals : "=".toList = ['='] := rfl
    have hmark : "\"".toList = ['"'] := rfl
    have hrun := run_append (hname ['='] (by decide)) (run_quoted hescaped)
    simpa [renderAttribute, Attribute.outline, quoted, hspace, hequals, hmark] using hrun

theorem run_renderAttributes (h : ∀ a ∈ attributes, Name.isMarkup a.name)
    (before outline : List Char) (values : List String) :
    (mark before outline values).run
        (String.join (attributes.map (" " ++ renderAttribute ·))).toList =
      (mark before (outline ++ (String.join (attributes.map (" " ++ ·.outline))).toList)
        (values ++ (attributes.filterMap (·.value)).map escape), []) := by
  induction attributes generalizing outline values with
  | nil => simp [Scanner.run, String.join_nil]
  | cons a attributes ih =>
    obtain ⟨ha, hrest⟩ := List.forall_mem_cons.1 h
    have hrun := run_append (run_renderAttribute ha before outline values) (ih hrest _ _)
    rw [List.map_cons, String.join_cons, String.toList_append, hrun]
    cases hvalue : a.value <;> simp [hvalue, String.join_cons]

theorem run_markText (hname : Bare name.toList) (h : ∀ a ∈ attributes, Name.isMarkup a.name)
    (hending : Ends ending) (before : List Char) :
    (content before).run (markText name attributes ending).toList =
      (content [], [⟨String.ofList before, outlineText name attributes ending,
        (attributes.filterMap (·.value)).map escape⟩]) := by
  obtain ⟨init, hinit, heq⟩ := hending
  have hopen : (content before).run ['<'] = (mark before ['<'] [], []) := by simp [Scanner.run, step]
  have hread := run_append (run_append hopen (run_outline hname.2.1 hname.2.2 _))
    (run_renderAttributes h _ _ _)
  have hrun := run_append (run_append hread (run_outline hinit.2.1 hinit.2.2 _)) run_end
  have hless : "<".toList = ['<'] := rfl
  have houtline : (outlineText name attributes ending).toList =
      ['<'] ++ name.toList ++ (String.join (attributes.map (" " ++ ·.outline))).toList ++ init
        ++ ['>'] := by
    simp only [outlineText, String.toList_append, heq, hless, List.append_assoc]
  rw [← houtline, String.ofList_toList] at hrun
  simpa [markText, heq, hless] using hrun

/-- A mark is found as it was before its lines were indented, but for its values. -/
theorem run_margin_markText (depth : Nat) (hname : Bare name.toList)
    (h : ∀ a ∈ attributes, Name.isMarkup a.name) (hending : Ends ending) (before : List Char) :
    (content before).run (margin depth
        ++ (markText name (attributes.map (·.indented depth)) ending).toList) =
      (content [], [⟨String.ofList (before ++ margin depth), outlineText name attributes ending,
        (attributes.filterMap (·.value)).map (escape ∘ indented depth)⟩]) := by
  have hmargin : '<' ∉ margin depth := fun hmem => absurd (eq_of_mem_margin hmem) (by decide)
  have hnames : ∀ a ∈ attributes.map (·.indented depth), Name.isMarkup a.name :=
    List.forall_mem_map.2 h
  have houtline (a : Attribute) : (a.indented depth).outline = a.outline := by
    obtain ⟨name, value⟩ := a
    cases value <;> rfl
  have hvalues : (attributes.map (·.indented depth)).filterMap (·.value) =
      (attributes.filterMap (·.value)).map (indented depth) := by
    rw [List.filterMap_map, List.map_filterMap]
    rfl
  have hrun := run_append (run_content hmargin before) (run_markText hname hnames hending _)
  rw [hrun, hvalues, List.map_map]
  simp only [outlineText, List.map_map, Function.comp_def, houtline, List.nil_append]

theorem run_inset_markText (hname : Bare name.toList) (h : ∀ a ∈ attributes, Name.isMarkup a.name)
    (hending : Ends ending) (before : List Char) :
    (content before).run (inset (margin depth) true (markText name attributes ending).toList) =
      (content [], [⟨String.ofList (before ++ margin depth), outlineText name attributes ending,
        (attributes.filterMap (·.value)).map (escape ∘ indented depth)⟩]) := by
  have hinset := inset_markText depth hname.1 h hending []
  rw [List.append_nil, Text.inset_nil, List.append_nil] at hinset
  rw [hinset, run_margin_markText depth hname h hending]

theorem run_inset_enclosed {closing : String} (hname : Bare name.toList)
    (h : ∀ a ∈ attributes, Name.isMarkup a.name) (hending : Ends ending)
    (hclosing : Bare closing.toList) (value : String) (before : List Char) :
    (content before).run (inset (margin depth) true
        (markText name attributes ending ++ escape value ++ markText closing [] ">").toList) =
      (content [], [⟨String.ofList (before ++ margin depth), outlineText name attributes ending,
          (attributes.filterMap (·.value)).map (escape ∘ indented depth)⟩,
        ⟨escape (indented depth value), outlineText closing [] ">", []⟩]) := by
  have hends : Ends ">" := ⟨[], ⟨nofun, nofun, nofun⟩, rfl⟩
  have hcs : (markText closing [] ">").toList = '<' :: (closing ++ ">").toList := by
    simp [markText, String.join_nil]
  have hline : '\n' ∉ (markText closing [] ">").toList := by
    simp [markText, String.join_nil, hclosing.1]
  have hclose : inset (margin depth) false (markText closing [] ">").toList =
      (markText closing [] ">").toList := Text.inset_of_oneLine _ hline
  have hpiece : inset (margin depth) false
      ((escape value).toList ++ (markText closing [] ">").toList) =
        (escape (indented depth value)).toList ++ (markText closing [] ">").toList := by
    rw [hcs, Text.inset_piece (by decide), ← hcs, hclose, toList_escape_indented]
  have hescaped : '<' ∉ (escape (indented depth value)).toList := fun hmem =>
    (ne_of_mem_escape hmem).1 rfl
  have hnone : ∀ a ∈ ([] : List Attribute), Name.isMarkup a.name := nofun
  have hrun := run_append (run_margin_markText depth hname h hending before)
    (run_append (run_content hescaped []) (run_markText hclosing hnone hends _))
  simp only [List.nil_append, String.ofList_toList] at hrun
  rw [String.toList_append, String.toList_append, List.append_assoc,
    inset_markText depth hname.1 h hending, hpiece]
  exact hrun

end

end Markup

end Scribe
