import Scribe.Proofs.Layout.Formats
import Scribe.Proofs.Layout.Spaced

/-!
Texts with lines that are spaced, in every format. What a format puts together out of such texts is
such a text again; between two groups of lines it leaves an empty line, and braces and commas leave
none.
-/
namespace Scribe

open Text (OneLine Final)

/-- A text that is empty, or the same lines in every format, of which the first and the last stand
at the left margin. If it is `closed`, an empty line may follow it. -/
def Passage (p : Prop) (closed : Bool) (t : RegularFormat → String) : Prop :=
  (∀ f, t f = "") ∨ ∃ first last ls, Spaced p first last ls ∧ first.level = 0 ∧ last.level = 0
    ∧ (closed → p → last.Ends) ∧ ∀ f, t f = f.1.typeset ls

/-- A text that other text may be added to. -/
abbrev Flow (p : Prop) := Passage p false

abbrev Group (p : Prop) := Passage p true

/-- A group of lines that is not empty, so that it ends whatever it is added to. -/
structure Ending (p : Prop) (t : RegularFormat → String) : Prop where
  group : Group p t
  ne_empty : ∀ f, t f ≠ ""

namespace Passage

variable {p : Prop} {closed : Bool} {start t u v : RegularFormat → String} {c : String}

theorem empty : Passage p closed fun _ => "" := .inl fun _ => rfl

theorem flow (ht : Passage p closed t) : Flow p t := by
  rcases ht with ht | ⟨first, last, ls, hls, hfirst, hlast, -, ht⟩
  · exact .inl ht
  · exact .inr ⟨first, last, ls, hls, hfirst, hlast, nofun, ht⟩

theorem of_group (ht : Group p t) : Passage p closed t := by
  cases closed with
  | false => exact ht.flow
  | true => exact ht

theorem line (h : OneLine c) : Flow p fun _ => c := by
  by_cases hempty : c = ""
  · exact .inl fun _ => hempty
  · exact .inr ⟨.margin c h, _, _, .last fun _ => hempty, rfl, rfl, nofun,
      fun f => (f.1.typeset_margin c h).symm⟩

theorem of_fixed (h : Fixed OneLine t) : Flow p t := by
  obtain ⟨text, htext, rfl⟩ := h
  exact line htext

theorem eq_empty_or (ht : Passage p closed t) : (∀ f, t f = "") ∨ ∀ f, t f ≠ "" := by
  rcases ht with ht | ⟨first, last, ls, hls, -, -, -, ht⟩
  · exact .inl ht
  · obtain ⟨l, ls, rfl⟩ := List.exists_cons_of_ne_nil hls.ne_nil
    by_cases hempty : l.content = "" ∧ ls = []
    · exact .inl fun f => (ht f).trans (f.2.typeset_eq_empty_iff.2 hempty)
    · exact .inr fun f h => hempty (f.2.typeset_eq_empty_iff.1 ((ht f).symm.trans h))

theorem ite_empty (ht : Passage p closed t) (hu : Flow p u) (hv : Flow p v) :
    Flow p fun f => if t f = "" then u f else v f := by
  rcases ht.eq_empty_or with h | h <;> simpa [h]

theorem exists_lines (ht : Passage p closed t) (hne : ∀ f, t f ≠ "") :
    ∃ first last ls, Spaced p first last ls ∧ first.level = 0 ∧ last.level = 0
      ∧ (closed → p → last.Ends) ∧ ∀ f, t f = f.1.typeset ls :=
  ht.resolve_left fun hempty => hne ⟨.standard, by decide, .inl rfl⟩ (hempty _)

theorem append_of_ne_empty (ht : Flow p t) (hu : Passage p closed u) (hne : ∀ f, u f ≠ "") :
    Passage p closed fun f => t f ++ u f := by
  rcases ht with ht | ⟨a, b, ls, hls, ha, hb, -, ht⟩
  · simpa only [ht, String.empty_append] using hu
  obtain ⟨c, d, ms, hms, hc, hd, hends, hu⟩ := hu.exists_lines hne
  obtain ⟨a', d', ks, hks, ha', hd', hends', htext⟩ := hls.glue hb hms hc
  refine .inr ⟨a', d', ks, hks, ha'.trans ha, hd'.trans hd, fun h hp => hends' (hends h hp), ?_⟩
  simp only [ht, hu, htext, implies_true]

theorem append (ht : Flow p t) (hu : Flow p u) : Flow p fun f => t f ++ u f := by
  rcases hu.eq_empty_or with h | h
  · simpa only [h, String.append_empty] using ht
  · exact ht.append_of_ne_empty hu h

theorem prepend (ht : Flow p t) (h : OneLine c) : Flow p fun f => c ++ t f := (line h).append ht

theorem concat (ht : Flow p t) (h : OneLine c) : Flow p fun f => t f ++ c := ht.append (line h)

theorem close (ht : Flow p t) (hu : Ending p u) : Ending p fun f => t f ++ u f where
  group := ht.append_of_ne_empty hu.group hu.ne_empty
  ne_empty f hempty := hu.ne_empty f (String.append_eq_empty_iff.1 hempty).2

theorem below (ht : Flow p t) (hu : Passage p closed u) (htext : ∀ f, t f ≠ "")
    (hne : ∀ f, u f ≠ "") : Passage p closed fun f => t f ++ f.1.lineTerminator ++ u f := by
  obtain ⟨a, b, ls, hls, ha, hb, -, ht⟩ := ht.exists_lines htext
  obtain ⟨c, d, ms, hms, hc, hd, hends, hu⟩ := hu.exists_lines hne
  refine .inr ⟨a, d, _, hls.append hms, ha, hd, hends, fun f => ?_⟩
  dsimp only
  rw [f.1.typeset_append hls.ne_nil hms.ne_nil, String.append_assoc, ht, hu]

theorem apart (ht : Group p t) (hu : Passage p closed u) (htext : ∀ f, t f ≠ "")
    (hne : ∀ f, u f ≠ "") : Passage p closed fun f =>
      t f ++ (f.1.lineTerminator ++ f.1.lineTerminator) ++ u f := by
  obtain ⟨a, b, ls, hls, ha, hb, hfinal, ht⟩ := ht.exists_lines htext
  obtain ⟨c, d, ms, hms, hc, hd, hends, hu⟩ := hu.exists_lines hne
  have hgap := hls.append_gap (g := .margin "" (by decide)) (hfinal rfl) rfl (hc.trans hb.symm) hms
  refine .inr ⟨a, d, _, hgap, ha, hd, hends, fun f => ?_⟩
  have hempty : (Line.margin "" (by decide)).text f.1 = "" := if_pos rfl
  dsimp only
  rw [f.1.typeset_append hls.ne_nil (List.cons_ne_nil _ _), f.1.typeset_below hms.ne_nil, hempty,
    String.empty_append, ht, hu]
  simp only [String.append_assoc]

theorem nested (hstart : Flow p start) (ht : Flow p t) (hu : Passage p closed u)
    (hopen : ∀ f, start f ≠ "") (hne : ∀ f, t f ≠ "") (hclose : ∀ f, u f ≠ "") :
    Passage p closed fun f =>
      start f ++ f.1.lineTerminator ++ f.1.indent (t f) ++ f.1.lineTerminator ++ u f := by
  obtain ⟨a, _, ls, hls, ha, -, -, hstart⟩ := hstart.exists_lines hopen
  obtain ⟨_, _, body, hbody, -, -, -, ht⟩ := ht.exists_lines hne
  obtain ⟨_, d, ms, hms, -, hd, hends, hu⟩ := hu.exists_lines hclose
  have hrest := hbody.deeper.append hms
  refine .inr ⟨a, d, _, hls.append hrest, ha, hd, hends, fun f => ?_⟩
  dsimp only
  rw [f.1.typeset_append hls.ne_nil hrest.ne_nil,
    f.1.typeset_append hbody.deeper.ne_nil hms.ne_nil, ← f.2.indent_typeset hbody.ne_nil, hstart,
    ht, hu]
  simp only [String.append_assoc]

theorem indent_ne_empty (ht : Passage p closed t) (hne : ∀ f, t f ≠ "") (f : RegularFormat) :
    f.1.indent (t f) ≠ "" := by
  obtain ⟨_, _, ls, hls, -, -, -, htext⟩ := ht.exists_lines hne
  obtain ⟨l, ls, rfl⟩ := List.exists_cons_of_ne_nil hls.ne_nil
  have htext := htext f
  intro hempty
  rw [htext, f.2.indent_typeset (List.cons_ne_nil l ls), List.map_cons, f.2.typeset_eq_empty_iff,
    List.map_eq_nil_iff] at hempty
  exact hne f (htext.trans (f.2.typeset_eq_empty_iff.2 hempty))

end Passage

namespace Ending

variable {p : Prop} {closed : Bool} {t : RegularFormat → String} {c : String}

theorem line (h : OneLine c) (hfinal : Final c) : Ending p fun _ => c where
  group := .inr ⟨.margin c h, _, _, .last fun _ => hfinal.ne_empty, rfl, rfl, fun _ _ => hfinal,
    fun f => (f.1.typeset_margin c h).symm⟩
  ne_empty _ := hfinal.ne_empty

theorem block (ht : Passage p closed t) : Ending p fun f => f.1.block (t f) := by
  have hclose : Ending p fun _ => "\x7d" := line (by decide) (by decide)
  rcases ht.eq_empty_or with hempty | hne
  · simp only [hempty, Format.block_empty]
    exact line (by decide) (by decide)
  · have hopen : Flow p fun _ => "\x7b" := .line (by decide)
    have hnested := hopen.nested ht.flow hclose.group (fun _ => by decide) hne hclose.ne_empty
    simp only [Format.block, if_neg (hne _)]
    exact ⟨hnested, fun f => by simp⟩

end Ending

theorem Format.indent_empty (f : RegularFormat) : f.1.indent "" = "" := by
  have hindent := f.2.indent_typeset (List.cons_ne_nil (.margin "" (by decide)) [])
  rw [f.1.typeset_margin, List.map_singleton, f.1.typeset_singleton] at hindent
  exact hindent.trans (if_pos rfl)

theorem Format.separate_empty (f : Format) (text : String) : f.separate [text, ""] = text := by
  by_cases hempty : text = "" <;> simp [separate, join, hempty]

theorem intercalate_of {P : (RegularFormat → String) → Prop} {sep : RegularFormat → String}
    {us : List (RegularFormat → String)} (hne : us ≠ []) (hlast : ∀ u ∈ us.getLast?, P u)
    (hstep : ∀ t ∈ us, ∀ u, P u → P fun f => t f ++ sep f ++ u f) :
    P fun f => (sep f).intercalate (us.map (· f)) := by
  induction us with
  | nil => exact absurd rfl hne
  | cons t us ih =>
    cases us with
    | nil => simpa using hlast t rfl
    | cons u us =>
      obtain ⟨ht, hus⟩ := List.forall_mem_cons.1 hstep
      have hrest := ih (List.cons_ne_nil u us) (by simpa using hlast) hus
      simpa only [List.map_cons, String.intercalate_cons_cons] using ht _ hrest

namespace Passage

variable {p : Prop} {closed last : Bool} {t : RegularFormat → String}
  {ts : RegularFormat → List String}

theorem joined {sep : RegularFormat → String} {us : List (RegularFormat → String)}
    (hus : ∀ u ∈ us, Passage p closed u ∧ ∀ f, u f ≠ "")
    (hlast : ∀ u ∈ us.getLast?, Passage p last u)
    (hstep : ∀ t u, Passage p closed t → Passage p last u → (∀ f, t f ≠ "") → (∀ f, u f ≠ "") →
      Passage p last fun f => t f ++ sep f ++ u f) :
    Passage p last fun f => (sep f).intercalate (us.map (· f)) := by
  by_cases hnil : us = []
  · simpa [hnil] using empty
  refine (intercalate_of (P := fun u => Passage p last u ∧ ∀ f, u f ≠ "") hnil (fun u hu => ?_)
    fun t ht u hu => ?_).1
  · exact ⟨hlast u hu, (hus u (List.mem_of_getLast? hu)).2⟩
  · obtain ⟨htext, hne⟩ := hus t ht
    refine ⟨hstep t u htext hu.1 hne hu.2, fun f hempty => hu.2 f ?_⟩
    exact (String.append_eq_empty_iff.1 hempty).2

theorem join {sep : RegularFormat → String} (hts : Each (Passage p closed) ts)
    (hstep : ∀ t u, Passage p closed t → Passage p closed u → (∀ f, t f ≠ "") → (∀ f, u f ≠ "") →
      Passage p closed fun f => t f ++ sep f ++ u f) :
    Passage p closed fun f => Format.join (ts f) (sep f) := by
  obtain ⟨us, hus, heq⟩ := hts.filter_of fun _ => eq_empty_or
  have hjoin (f : RegularFormat) : Format.join (ts f) (sep f) =
      (sep f).intercalate (us.map (· f)) := congrArg _ (congrFun heq f)
  simp only [hjoin]
  exact joined hus (fun u hu => (hus u (List.mem_of_getLast? hu)).1) hstep

theorem lines (hts : Each (Passage p closed) ts) : Passage p closed fun f => f.1.lines (ts f) :=
  join hts fun _ _ ht hu => ht.flow.below hu

theorem separate (hts : Each (Group p) ts) : Group p fun f => f.1.separate (ts f) :=
  join hts fun _ _ ht hu => ht.apart hu

theorem listed (hts : Each (Flow p) ts) :
    Flow p fun f => Format.join (ts f) ("," ++ f.1.lineTerminator) := by
  refine join hts fun t u ht hu hne hne' => ?_
  have hcomma := (ht.concat (c := ",") (by decide)).below hu (fun f h => hne f
    (String.append_eq_empty_iff.1 h).1) hne'
  simpa only [String.append_assoc] using hcomma

theorem lines_concat (hts : Each (Flow p) ts) (ht : Ending p t) :
    Group p fun f => f.1.lines (ts f ++ [t f]) := by
  obtain ⟨us, hus, heq⟩ := hts.filter_of fun _ => eq_empty_or
  have hlines (f : RegularFormat) : f.1.lines (ts f ++ [t f]) =
      f.1.lineTerminator.intercalate ((us ++ [t]).map (· f)) := by
    rw [Format.lines, Format.join, List.filter_append, congrFun heq f, List.map_append]
    simp [ht.ne_empty f]
  simp only [hlines]
  have hbelow (t u : RegularFormat → String) (ht : Flow p t) (hu : Group p u) :=
    ht.below hu
  refine joined ?_ (fun u hu => ?_) hbelow
  · exact List.forall_mem_append.2 ⟨hus, List.forall_mem_singleton.2 ⟨ht.group.flow, ht.ne_empty⟩⟩
  · rw [List.getLast?_concat, Option.mem_some] at hu
    exact hu ▸ ht.group

theorem intercalate {sep : String} (hsep : OneLine sep) (hts : Each (Flow p) ts) :
    Flow p fun f => sep.intercalate (ts f) := by
  obtain ⟨us, hus, rfl⟩ := hts
  by_cases hnil : us = []
  · simpa [hnil] using empty
  · exact intercalate_of hnil (fun u hu => hus u (List.mem_of_getLast? hu)) fun t ht u hu =>
      ((hus t ht).concat hsep).append hu

theorem concatenated (hts : Each (Flow p) ts) : Flow p fun f => String.join (ts f) := by
  obtain ⟨us, hus, rfl⟩ := hts
  induction us with
  | nil => exact empty
  | cons u us ih =>
    obtain ⟨hu, hus⟩ := List.forall_mem_cons.1 hus
    simp only [List.map_cons, String.join_cons]
    exact hu.append (ih hus)

theorem enclosed {start u : RegularFormat → String} (hstart : Flow p start) (ht : Flow p t)
    (hu : Flow p u) (hne : ∀ f, start f ≠ "" ∧ u f ≠ "") :
    Flow p fun f => f.1.lines [start f, f.1.indent (t f), u f] := by
  rcases ht.eq_empty_or with hempty | hsome
  · simp only [hempty, Format.indent_empty]
    exact lines (.cons hstart (.cons empty (.cons hu .nil)))
  · have hlines (f : RegularFormat) : f.1.lines [start f, f.1.indent (t f), u f] =
        start f ++ f.1.lineTerminator ++ f.1.indent (t f) ++ f.1.lineTerminator ++ u f := by
      simp [Format.lines, Format.join, hne f, ht.indent_ne_empty hsome f, String.append_assoc]
    simp only [hlines]
    exact hstart.nested ht hu (fun f => (hne f).1) hsome fun f => (hne f).2

theorem getD {t : RegularFormat → Option String} (ht : Perhaps (Passage p closed) t) :
    Passage p closed fun f => (t f).getD "" := by
  rcases ht with rfl | ⟨text, htext, rfl⟩
  · exact empty
  · exact htext

theorem verbatim {cs : List String} (hne : cs ≠ []) (h : ∀ c ∈ cs, OneLine c ∧ (p → c ≠ "")) :
    ∃ first last ls, Spaced p first last ls ∧ first.level = 0 ∧ last.level = 0
      ∧ ∀ f : Format, f.lineTerminator.intercalate cs = f.typeset ls := by
  induction cs with
  | nil => exact absurd rfl hne
  | cons c cs ih =>
    obtain ⟨⟨hline, hfull⟩, hcs⟩ := List.forall_mem_cons.1 h
    by_cases hnil : cs = []
    · refine ⟨.margin c hline, _, _, .last hfull, rfl, rfl, fun f => ?_⟩
      rw [hnil, String.intercalate_singleton, f.typeset_margin]
    · obtain ⟨first, last, ls, hls, -, hlast, htext⟩ := ih hnil hcs
      refine ⟨.margin c hline, last, _, .next hfull hls, rfl, hlast, fun f => ?_⟩
      rw [String.intercalate_cons_of_ne_nil hnil, htext, f.typeset_below hls.ne_nil,
        Line.text_of_margin f rfl, String.append_assoc]
      rfl

theorem code {statements : List String}
    (h : p → ∀ statement ∈ statements, "" ∉ Text.splitOn "\n" statement) :
    Flow p fun f => f.1.code statements := by
  by_cases hnil : statements.flatMap (Text.splitOn "\n") = []
  · exact .inl fun f => by simp [Format.code, hnil]
  have hlines : ∀ c ∈ statements.flatMap (Text.splitOn "\n"), OneLine c ∧ (p → c ≠ "") := by
    intro c hc
    obtain ⟨statement, hmem, hc⟩ := List.mem_flatMap.1 hc
    exact ⟨Text.oneLine_of_mem_splitOn hc, fun hp hempty => h hp statement hmem (hempty ▸ hc)⟩
  obtain ⟨first, last, ls, hls, hfirst, hlast, htext⟩ := verbatim hnil hlines
  exact .inr ⟨first, last, ls, hls, hfirst, hlast, nofun, fun f => htext f.1⟩

theorem page (ht : Passage p closed t) : ∃ ls, (p → WellSpaced ls) ∧ ∀ f : RegularFormat,
    (if t f = "" then t f else t f ++ f.1.lineTerminator) = f.1.page ls := by
  rcases ht with ht | ⟨first, last, ls, hls, -, -, -, ht⟩
  · refine ⟨[], fun _ => wellSpaced_nil, fun f => ?_⟩
    rw [if_pos (ht f), ht]
    rfl
  · refine ⟨ls, hls.wellSpaced, fun f => ?_⟩
    rw [Format.page, ht]
    split
    · next hempty => exact hempty
    · rfl

end Passage

end Scribe
