import Scribe.Proofs.Layout.Line

/-!
Empty lines. A text that is put together by the means of a format has one between two groups of
lines and nowhere else, unless there are empty lines in a piece of code: neither its first line is
empty nor its last, and each empty one stands alone, after the end of a declaration, a statement or
a comment.
-/
namespace Scribe

open Text (OneLine)

namespace Text

def Final (text : String) : Prop := ∃ c ∈ text.toList.getLast?, c ∈ [';', '\x7d', '/']

instance (text : String) : Decidable (Final text) :=
  decidable_of_iff (text.toList.getLast?.any fun c => [';', '\x7d', '/'].contains c)
    (by simp [Final, Option.any_eq_true])

theorem Final.append {text : String} (h : Final text) (before : String) :
    Final (before ++ text) := by
  obtain ⟨c, hc, hmem⟩ := h
  refine ⟨c, ?_, hmem⟩
  rw [String.toList_append, List.getLast?_append, Option.mem_def.1 hc]
  rfl

theorem Final.ne_empty {text : String} (h : Final text) : text ≠ "" := by
  rintro rfl
  obtain ⟨c, hc, -⟩ := h
  exact nomatch hc

end Text

open Text (Final)

namespace Line

variable {l m : Line}

def Ends (l : Line) : Prop := Final l.content

def Opens (l : Line) : Prop := l.content.toList.getLast? = some '\x7b'

def Closes (l : Line) : Prop := l.content.toList.head? = some '\x7d'

theorem not_opens_of_ends (h : l.Ends) : ¬ l.Opens := by
  obtain ⟨c, hc, hmem⟩ := h
  intro hopens
  obtain rfl := Option.some.inj ((Option.mem_def.1 hc).symm.trans hopens)
  exact absurd hmem (by decide)

end Line

/-- Lines from a first one to a last one. If `p`, then neither is empty, and any other empty line
stands between two of the same level, the former of which ends a group. -/
inductive Spaced (p : Prop) : Line → Line → List Line → Prop
  | last {l : Line} (h : p → l.content ≠ "") : Spaced p l l [l]
  | next {l m last : Line} {ls : List Line} (h : p → l.content ≠ "") (hrest : Spaced p m last ls) :
    Spaced p l last (l :: ls)
  | gap {l g m last : Line} {ls : List Line} (h : p → l.Ends) (hgap : g.content = "")
    (hlevel : m.level = l.level) (hrest : Spaced p m last ls) : Spaced p l last (l :: g :: ls)

namespace Spaced

variable {p : Prop} {a b c d g : Line} {ls ms : List Line}

theorem head? (h : Spaced p a b ls) : ls.head? = some a := by
  cases h <;> rfl

theorem ne_nil (h : Spaced p a b ls) : ls ≠ [] := by
  cases h <;> exact List.cons_ne_nil _ _

theorem getLast? (h : Spaced p a b ls) : ls.getLast? = some b := by
  induction h with
  | last h => rfl
  | next h hrest ih =>
    rw [List.getLast?_cons, ih]
    rfl
  | gap h hgap hlevel hrest ih =>
    rw [List.getLast?_cons, List.getLast?_cons, ih]
    rfl

theorem append (h : Spaced p a b ls) (h' : Spaced p c d ms) : Spaced p a d (ls ++ ms) := by
  induction h with
  | last h => exact .next h h'
  | next h hrest ih => exact .next h ih
  | gap h hgap hlevel hrest ih => exact .gap h hgap hlevel ih

theorem append_gap (h : Spaced p a b ls) (hb : p → b.Ends) (hgap : g.content = "")
    (hlevel : c.level = b.level) (h' : Spaced p c d ms) : Spaced p a d (ls ++ g :: ms) := by
  induction h with
  | last h => exact .gap hb hgap hlevel h'
  | next h hrest ih => exact .next h (ih hb hlevel)
  | gap h hgap' hlevel' hrest ih => exact .gap h hgap' hlevel' (ih hb hlevel)

theorem glue (h : Spaced p a b ls) (hb : b.level = 0) (h' : Spaced p c d ms) (hc : c.level = 0) :
    ∃ a' d' ks, Spaced p a' d' ks ∧ a'.level = a.level ∧ d'.level = d.level ∧ (d.Ends → d'.Ends)
      ∧ ∀ f : Format, f.typeset ks = f.typeset ls ++ f.typeset ms := by
  -- Only the last line of the first text changes, and only what it is joined to can make it the
  -- last line of the whole.
  induction h with
  | @last b h =>
    have hlevel : (b.extend c.content c.oneLine).level = c.level := by
      rw [Line.level_extend hb, hc]
    have hne : p → (b.extend c.content c.oneLine).content ≠ "" := fun hp hempty =>
      h hp (String.append_eq_empty_iff.1 hempty).1
    have hends : c.Ends → (b.extend c.content c.oneLine).Ends := fun hends =>
      hends.append b.content
    have htext (f : Format) : (b.extend c.content c.oneLine).text f = b.text f ++ c.text f := by
      rw [Line.text_extend, c.text_of_margin f hc]
    cases h' with
    | last hc' =>
      refine ⟨_, _, _, .last hne, hlevel.trans (hc.trans hb.symm), hlevel, hends,
        fun f => ?_⟩
      simp [Format.typeset, htext]
    | next hc' hrest =>
      refine ⟨_, _, _, .next hne hrest, hlevel.trans (hc.trans hb.symm), rfl, id, fun f => ?_⟩
      rw [f.typeset_cons, htext, f.typeset_cons c, Format.typeset]
      simp [String.append_assoc]
    | gap hc' hgap hlevel' hrest =>
      refine ⟨_, _, _, .gap (fun hp => hends (hc' hp)) hgap (hlevel'.trans hlevel.symm) hrest,
        hlevel.trans (hc.trans hb.symm), rfl, id, fun f => ?_⟩
      rw [f.typeset_cons, htext, f.typeset_cons c, Format.typeset]
      simp [String.append_assoc]
  | next h hrest ih =>
    obtain ⟨a', d', ks, hks, -, hd, hends, htext⟩ := ih hb
    refine ⟨_, d', _, .next h hks, rfl, hd, hends, fun f => ?_⟩
    rw [f.typeset_below hks.ne_nil, f.typeset_below hrest.ne_nil, htext]
    simp only [String.append_assoc]
  | gap h hgap hlevel hrest ih =>
    obtain ⟨a', d', ks, hks, ha, hd, hends, htext⟩ := ih hb
    refine ⟨_, d', _, .gap h hgap (ha.trans hlevel) hks, rfl, hd, hends, fun f => ?_⟩
    rw [f.typeset_below (List.cons_ne_nil _ _), f.typeset_below hks.ne_nil,
      f.typeset_below (List.cons_ne_nil _ _), f.typeset_below hrest.ne_nil, htext]
    simp only [String.append_assoc]

theorem deeper (h : Spaced p a b ls) : Spaced p a.deeper b.deeper (ls.map .deeper) := by
  induction h with
  | last h => exact .last h
  | next h hrest ih => exact .next h ih
  | gap h hgap hlevel hrest ih => exact .gap h hgap (congrArg (· + 1) hlevel) ih

/-! Where no empty line is. -/

theorem first_ne_empty (h : Spaced p a b ls) (hp : p) : a.content ≠ "" := by
  cases h with
  | last h => exact h hp
  | next h hrest => exact h hp
  | gap h hgap hlevel hrest => exact (h hp).ne_empty

theorem last_ne_empty (h : Spaced p a b ls) (hp : p) : b.content ≠ "" := by
  induction h with
  | last h => exact h hp
  | next h hrest ih => exact ih
  | gap h hgap hlevel hrest ih => exact ih

theorem around_empty {ks : List Line} (h : Spaced p a b ks) (hp : p) (ls ms : List Line)
    (heq : ks = ls ++ g :: ms) (hg : g.content = "") : ∃ init l m rest,
      ls = init ++ [l] ∧ ms = m :: rest ∧ l.Ends ∧ m.content ≠ "" ∧ m.level = l.level := by
  induction h generalizing ls with
  | last h =>
    cases ls with
    | nil => exact absurd ((List.cons.inj heq).1 ▸ hg) (h hp)
    | cons k ls => exact absurd (List.cons.inj heq).2 (by simp)
  | @next l m b ks h hrest ih =>
    cases ls with
    | nil => exact absurd ((List.cons.inj heq).1 ▸ hg) (h hp)
    | cons k ls =>
      rw [List.cons_append, List.cons.injEq] at heq
      obtain ⟨init, l', m', rest, rfl, hrest'⟩ := ih ls heq.2
      exact ⟨k :: init, l', m', rest, rfl, hrest'⟩
  | @gap l g' m b ks h hgap hlevel hrest ih =>
    cases ls with
    | nil => exact absurd ((List.cons.inj heq).1 ▸ hg) (h hp).ne_empty
    | cons k ls =>
      rw [List.cons_append, List.cons.injEq] at heq
      obtain ⟨rfl, heq⟩ := heq
      cases ls with
      | nil =>
        rw [List.nil_append, List.cons.injEq] at heq
        obtain ⟨rest, hks⟩ := List.head?_eq_some_iff.1 hrest.head?
        exact ⟨[], l, m, rest, rfl, heq.2.symm.trans hks, h hp, hrest.first_ne_empty hp, hlevel⟩
      | cons k ls =>
        rw [List.cons_append, List.cons.injEq] at heq
        obtain ⟨init, l', m', rest, rfl, hrest'⟩ := ih ls heq.2
        exact ⟨l :: k :: init, l', m', rest, rfl, hrest'⟩

end Spaced

/-- A body between the line that opens it and the line that closes it. -/
structure Encloses (start : Line) (body : List Line) (stop : Line) : Prop where
  opens : start.Opens
  closes : stop.Closes
  level : stop.level = start.level
  deeper : ∀ l ∈ body, l.content ≠ "" → start.level < l.level

/-- Empty lines stand alone, and neither at an end of the text nor at an end of a body, but between
two groups of one level. -/
structure WellSpaced (ls : List Line) : Prop where
  first : ∀ l ∈ ls.head?, l.content ≠ ""
  last : ∀ l ∈ ls.getLast?, l.content ≠ ""
  between : ∀ before g after, ls = before ++ g :: after → g.content = "" →
    ∃ l ∈ before.getLast?, ∃ m ∈ after.head?, l.Ends ∧ m.content ≠ "" ∧ m.level = l.level
  single : ∀ g g', [g, g'] <:+: ls → g.content = "" → g'.content ≠ ""
  opening : ∀ l g, [l, g] <:+: ls → l.Opens → g.content ≠ ""
  closing : ∀ start body stop, start :: body ++ [stop] <:+: ls → Encloses start body stop →
    ∀ g ∈ body.getLast?, g.content ≠ ""

theorem wellSpaced_nil : WellSpaced [] where
  first := nofun
  last := nofun
  between before g after h := by simp at h
  single _ _ h := nomatch List.infix_nil.1 h
  opening _ _ h := nomatch List.infix_nil.1 h
  closing _ _ _ h := nomatch List.infix_nil.1 h

theorem Spaced.wellSpaced {p : Prop} {a b : Line} {ls : List Line} (h : Spaced p a b ls) (hp : p) :
    WellSpaced ls where
  first l hl := by
    rw [h.head?] at hl
    exact Option.some.inj hl ▸ h.first_ne_empty hp
  last l hl := by
    rw [h.getLast?] at hl
    exact Option.some.inj hl ▸ h.last_ne_empty hp
  between := by
    rintro before g after rfl hg
    obtain ⟨init, l, m, rest, rfl, rfl, hneighbours⟩ := h.around_empty hp before after rfl hg
    exact ⟨l, by simp, m, by simp, hneighbours⟩
  single := by
    rintro g g' ⟨before, after, heq⟩ hg
    obtain ⟨-, -, m, rest, -, hrest, -, hm, -⟩ :=
      h.around_empty hp before (g' :: after) (by simp [← heq]) hg
    exact (List.cons.inj hrest).1 ▸ hm
  opening := by
    rintro l g ⟨before, after, heq⟩ hopens hg
    obtain ⟨init, l', -, -, hinit, -, hends, -⟩ :=
      h.around_empty hp (before ++ [l]) after (by simp [← heq]) hg
    obtain rfl := List.singleton_inj.1 (List.append_inj' hinit rfl).2
    exact Line.not_opens_of_ends hends hopens
  closing := by
    rintro start body stop ⟨before, after, heq⟩ hbody g hlast hg
    obtain ⟨body, rfl⟩ := List.getLast?_eq_some_iff.1 (Option.mem_def.1 hlast)
    obtain ⟨init, l, m, rest, hinit, hrest, hends, -, hlevel⟩ :=
      h.around_empty hp (before ++ start :: body) (stop :: after) (by simp [← heq]) hg
    obtain rfl := (List.cons.inj hrest).1
    -- the line before the empty one is no deeper than the braces, so that it is the opening one
    rcases List.eq_nil_or_concat body with rfl | ⟨body, k, rfl⟩
    · obtain rfl := List.singleton_inj.1 (List.append_inj' hinit rfl).2
      exact Line.not_opens_of_ends hends hbody.opens
    · rw [List.concat_eq_append, ← List.cons_append, ← List.append_assoc] at hinit
      obtain rfl := List.singleton_inj.1 (List.append_inj' hinit rfl).2
      have hdeeper := hbody.deeper k (by simp) hends.ne_empty
      rw [← hlevel, hbody.level] at hdeeper
      exact Nat.lt_irrefl _ hdeeper

def EndsOnce (terminator text : String) : Prop :=
  ∃ body, text = body ++ terminator ∧ ∀ rest, body ≠ rest ++ terminator

theorem Format.typeset_concat (f : Format) (ls : List Line) (l : Line) :
    ∃ before, f.typeset (ls ++ [l]) = before ++ l.text f := by
  by_cases hnil : ls = []
  · exact ⟨"", by rw [hnil, List.nil_append, f.typeset_singleton, String.empty_append]⟩
  · refine ⟨f.typeset ls ++ f.lineTerminator, ?_⟩
    rw [f.typeset_append hnil (List.cons_ne_nil l []), f.typeset_singleton, String.append_assoc]

theorem Format.Regular.not_ends_line {f : Format} (h : f.Regular) {l : Line} (hl : l.content ≠ "")
    (before rest : String) : before ++ l.text f ≠ rest ++ f.lineTerminator := by
  obtain ⟨init, -, hterminator⟩ := h.endsLine
  intro heq
  have hlast := congrArg (fun text => text.toList.getLast?) heq
  simp only [String.toList_append, hterminator, List.getLast?_append, List.getLast?_singleton,
    Option.some_or] at hlast
  cases htext : (l.text f).toList.getLast? with
  | none =>
    rw [List.getLast?_eq_none_iff, String.toList_eq_nil_iff] at htext
    exact hl ((l.text_eq_empty_iff f).1 htext)
  | some c =>
    rw [htext, Option.some_or, Option.some.injEq] at hlast
    exact l.oneLine_text h (hlast ▸ List.mem_of_getLast? htext)

namespace WellSpaced

variable {f : Format} {ls : List Line}

theorem page_eq (hf : f.Regular) (h : WellSpaced ls) (hne : ls ≠ []) :
    f.page ls = f.typeset ls ++ f.lineTerminator := by
  obtain ⟨l, ls, rfl⟩ := List.exists_cons_of_ne_nil hne
  exact if_neg fun hempty => h.first l rfl (hf.typeset_eq_empty_iff.1 hempty).1

theorem splitOn_page (hf : f.Regular) (h : WellSpaced ls) :
    Text.splitOn f.lineTerminator (f.page ls) = ls.map (·.text f) ++ [""] := by
  have hend : f.typeset [.margin "" (by decide)] = "" := f.typeset_margin "" (by decide)
  by_cases hnil : ls = []
  · have hsplit := hf.splitOn_typeset (List.cons_ne_nil (Line.margin "" (by decide)) [])
    rw [hend] at hsplit
    rw [hnil]
    exact hsplit
  · have hpage := f.typeset_append hnil (List.cons_ne_nil (Line.margin "" (by decide)) [])
    rw [hend, String.append_empty, ← h.page_eq hf hnil] at hpage
    rw [← hpage, hf.splitOn_typeset (by simp), List.map_append]
    rfl

theorem page_endsOnce (hf : f.Regular) (h : WellSpaced ls) :
    f.page ls = "" ∨ EndsOnce f.lineTerminator (f.page ls) := by
  rcases List.eq_nil_or_concat ls with rfl | ⟨init, l, rfl⟩
  · exact .inl rfl
  · rw [List.concat_eq_append] at h ⊢
    obtain ⟨before, hbefore⟩ := f.typeset_concat init l
    refine .inr ⟨_, h.page_eq hf (by simp), fun rest => ?_⟩
    rw [hbefore]
    exact hf.not_ends_line (h.last l (by simp)) before rest

end WellSpaced

end Scribe
