import Scribe.Markup.Binding

/-!
Reading escaped text back: each entity stands for the character that it was written for, and a
reader of text comes to the end of what was escaped and no further, whatever follows.
-/
namespace Scribe.Markup

def unescapeChars : List Char → List Char
  | '&' :: 'a' :: 'm' :: 'p' :: ';' :: cs => '&' :: unescapeChars cs
  | '&' :: 'l' :: 't' :: ';' :: cs => '<' :: unescapeChars cs
  | '&' :: 'g' :: 't' :: ';' :: cs => '>' :: unescapeChars cs
  | '&' :: 'q' :: 'u' :: 'o' :: 't' :: ';' :: cs => '"' :: unescapeChars cs
  | c :: cs => c :: unescapeChars cs
  | [] => []

/-- The four entities replaced by their characters; other text is left as it is. -/
def unescape (text : String) : String := .ofList (unescapeChars text.toList)

theorem unescapeChars_cons {c : Char} (h : c ≠ '&') (cs : List Char) :
    unescapeChars (c :: cs) = c :: unescapeChars cs := by
  rw [unescapeChars] <;> rintro _ rfl <;> exact absurd rfl h

theorem unescapeChars_escapeChar (c : Char) (cs : List Char) :
    unescapeChars (escapeChar c ++ cs) = c :: unescapeChars cs := by
  unfold escapeChar
  split
  case h_5 hamp _ _ _ => exact unescapeChars_cons hamp cs
  all_goals rfl

@[simp] theorem unescape_escape (text : String) : unescape (escape text) = text := by
  have hchars (cs : List Char) : unescapeChars (cs.flatMap escapeChar) = cs := by
    induction cs with
    | nil => rfl
    | cons c cs ih => rw [List.flatMap_cons, unescapeChars_escapeChar, ih]
  rw [unescape, escape, Text.toList_substitute, hchars, String.ofList_toList]

/-! Marks and ampersands. -/

theorem notMem_escapeChar (c : Char) :
    '<' ∉ escapeChar c ∧ '>' ∉ escapeChar c ∧ '"' ∉ escapeChar c := by
  unfold escapeChar
  split
  case h_5 hless hgreater hquote =>
    simp only [List.mem_singleton]
    exact ⟨Ne.symm hless, Ne.symm hgreater, Ne.symm hquote⟩
  all_goals decide

theorem ne_of_mem_escape {text : String} {c : Char} (h : c ∈ (escape text).toList) :
    c ≠ '<' ∧ c ≠ '>' ∧ c ≠ '"' := by
  rw [escape, Text.toList_substitute, List.mem_flatMap] at h
  obtain ⟨c', -, hc⟩ := h
  obtain ⟨hless, hgreater, hquote⟩ := notMem_escapeChar c'
  refine ⟨?_, ?_, ?_⟩ <;> rintro rfl <;> contradiction

def entities : List String := ["&amp;", "&lt;", "&gt;", "&quot;"]

theorem exists_entity_of_escapeChar {c : Char} {before after : List Char}
    (h : escapeChar c = before ++ '&' :: after) :
    ∃ entity ∈ entities, '&' :: after = entity.toList := by
  have hentity (entity : String) {name : List Char} (heq : entity.toList = '&' :: name)
      (hname : '&' ∉ name) (hentity : entity ∈ entities)
      (h : entity.toList = before ++ '&' :: after) :
      ∃ entity ∈ entities, '&' :: after = entity.toList := by
    cases before with
    | nil => exact ⟨entity, hentity, h.symm⟩
    | cons b before =>
      obtain ⟨-, rfl⟩ := List.cons.inj (heq.symm.trans h)
      exact absurd (List.mem_append_right before List.mem_cons_self) hname
  unfold escapeChar at h
  split at h
  case h_1 => exact hentity "&amp;" rfl (by decide) (by decide) h
  case h_2 => exact hentity "&lt;" rfl (by decide) (by decide) h
  case h_3 => exact hentity "&gt;" rfl (by decide) (by decide) h
  case h_4 => exact hentity "&quot;" rfl (by decide) (by decide) h
  case h_5 hamp _ _ _ =>
    have hmem : '&' ∈ [c] := h ▸ List.mem_append_right before List.mem_cons_self
    exact absurd (List.mem_singleton.1 hmem).symm hamp

theorem exists_entity {text : String} (before after : List Char)
    (h : (escape text).toList = before ++ '&' :: after) :
    ∃ entity ∈ entities, entity.toList <+: '&' :: after := by
  rw [escape, Text.toList_substitute] at h
  generalize text.toList = cs at h
  induction cs generalizing before with
  | nil => exact absurd h (by simp)
  | cons c cs ih =>
    rw [List.flatMap_cons] at h
    rcases List.append_eq_append_iff.1 h with ⟨beyond, -, hrest⟩ | ⟨beyond, hchar, hafter⟩
    · exact ih beyond hrest
    · cases beyond with
      | nil => exact ih [] hafter.symm
      | cons a beyond =>
        obtain ⟨rfl, rfl⟩ := List.cons.inj hafter
        obtain ⟨entity, hentity, heq⟩ := exists_entity_of_escapeChar hchar
        exact ⟨entity, hentity, _, by rw [← heq]; rfl⟩

/-! Readers. -/

/-- Reads text as far as a mark: what stands before it, and the rest from the mark on. Where the
mark is missing, a tag begins before it or an ampersand begins no entity, there is no such text. -/
def readTo (mark : Char) : List Char → Option (List Char × List Char)
  | [] => none
  | c :: cs =>
    if c = mark then some ([], c :: cs)
    else if c = '<' then none
    else if c = '&' ∧ ¬ entities.any (·.toList.isPrefixOf (c :: cs)) then none
    else (readTo mark cs).map fun (read, rest) => (c :: read, rest)

theorem readTo_append {mark : Char} {text : List Char} (hmark : mark ∉ text) (htag : '<' ∉ text)
    (hentity : ∀ before after, text = before ++ '&' :: after →
      ∃ entity ∈ entities, entity.toList <+: '&' :: after) (rest : List Char) :
    readTo mark (text ++ mark :: rest) = some (text, mark :: rest) := by
  induction text with
  | nil => exact if_pos rfl
  | cons c text ih =>
    have hbegins :
        ¬ (c = '&' ∧ ¬ entities.any (·.toList.isPrefixOf (c :: (text ++ mark :: rest)))) := by
      rintro ⟨rfl, hnone⟩
      obtain ⟨entity, hmem, hbegins⟩ := hentity [] text rfl
      refine hnone (List.any_eq_true.2 ⟨entity, hmem, ?_⟩)
      exact List.isPrefixOf_iff_prefix.2 (hbegins.trans (List.prefix_append _ (mark :: rest)))
    have hread := ih (List.not_mem_of_not_mem_cons hmark) (List.not_mem_of_not_mem_cons htag)
      fun before after heq => hentity (c :: before) after (congrArg (c :: ·) heq)
    rw [List.cons_append, readTo, if_neg (List.ne_of_not_mem_cons hmark).symm,
      if_neg (List.ne_of_not_mem_cons htag).symm, if_neg hbegins, hread]
    rfl

/-- Escaping loses nothing, and what is escaped is text wherever it stands: there is no mark in it,
each of its ampersands begins an entity, and so a value between quotes or the text before a tag is
read to its end and no further. -/
theorem escape_selfContained (s : String) :
    unescape (escape s) = s
      ∧ ('<' ∉ (escape s).toList ∧ '>' ∉ (escape s).toList ∧ '"' ∉ (escape s).toList)
      ∧ (∀ before after, (escape s).toList = before ++ '&' :: after →
        ∃ entity ∈ entities, entity.toList <+: '&' :: after)
      ∧ ∀ r, readTo '"' ((escape s).toList ++ '"' :: r) = some ((escape s).toList, '"' :: r)
        ∧ readTo '<' ((escape s).toList ++ '<' :: r) = some ((escape s).toList, '<' :: r) := by
  have hless : '<' ∉ (escape s).toList := fun hmem => (ne_of_mem_escape hmem).1 rfl
  have hgreater : '>' ∉ (escape s).toList := fun hmem => (ne_of_mem_escape hmem).2.1 rfl
  have hquote : '"' ∉ (escape s).toList := fun hmem => (ne_of_mem_escape hmem).2.2 rfl
  refine ⟨unescape_escape s, ⟨hless, hgreater, hquote⟩, exists_entity, fun r => ⟨?_, ?_⟩⟩
  · exact readTo_append hquote hless exists_entity r
  · exact readTo_append hless hless exists_entity r

theorem escape_selfContained_lookalike :
    let s := "\"&lt;"
    escape s = "&quot;&amp;lt;" ∧ unescape (escape s) = s
      ∧ (escape s).toList = "&quot;".toList ++ '&' :: "amp;lt;".toList
      ∧ (∃ entity ∈ entities, entity.toList <+: '&' :: "amp;lt;".toList)
      ∧ readTo '"' ((escape s).toList ++ ['"', '<']) = some ((escape s).toList, ['"', '<'])
      ∧ readTo '<' ((escape s).toList ++ ['<', '"']) = some ((escape s).toList, ['<', '"']) := by
  intro s
  have hescape : escape s = "&quot;&amp;lt;" := by decide +kernel
  have hsplit : (escape s).toList = "&quot;".toList ++ '&' :: "amp;lt;".toList := by
    rw [hescape]
    rfl
  obtain ⟨hback, -, hentity, hread⟩ := escape_selfContained s
  exact ⟨hescape, hback, hsplit, hentity _ _ hsplit, (hread ['<']).1, (hread ['"']).2⟩

end Scribe.Markup
