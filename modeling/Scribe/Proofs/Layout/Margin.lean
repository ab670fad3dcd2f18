import Scribe.Proofs.Layout.Line

/-!
Indentation, character by character. A margin stands in front of every line that is not empty, so
that a piece of text within a line has it after each of its newlines that no other one follows.
-/
namespace Scribe

namespace Text

/-- Puts a margin in front of every line that is not empty; `fresh` tells whether a line begins. -/
def inset (margin : List Char) : (fresh : Bool) → List Char → List Char
  | _, [] => []
  | fresh, c :: cs =>
    if c = '\n' then c :: inset margin true cs
    else (if fresh then margin else []) ++ c :: inset margin false cs

/-- What becomes of a piece of text that begins and ends within lines. -/
def shift (margin : List Char) : List Char → List Char
  | [] => []
  | c :: cs =>
    if c = '\n' ∧ cs.head? ≠ some '\n' then c :: (margin ++ shift margin cs)
    else c :: shift margin cs

def shifted (margin text : String) : String := .ofList (shift margin.toList text.toList)

section

variable {margin line as bs cs : List Char} {fresh : Bool} {c : Char}

@[simp] theorem inset_nil (fresh : Bool) : inset margin fresh [] = [] := by
  cases fresh <;> rfl

theorem inset_fresh (h : c ≠ '\n') (cs : List Char) :
    inset margin true (c :: cs) = margin ++ inset margin false (c :: cs) := by
  simp [inset, h]

theorem inset_line (margin : List Char) (h : '\n' ∉ line) (cs : List Char) :
    inset margin false (line ++ cs) = line ++ inset margin false cs := by
  induction line with
  | nil => rfl
  | cons c line ih =>
    obtain ⟨hc, hline⟩ := not_or.1 (List.mem_cons.not.1 h)
    simp [inset, Ne.symm hc, ih hline]

theorem inset_of_oneLine (margin : List Char) (h : '\n' ∉ line) :
    inset margin false line = line := by
  have hline := inset_line margin h []
  rwa [List.append_nil, inset_nil, List.append_nil] at hline

theorem inset_newline (fresh : Bool) (as bs : List Char) :
    inset margin fresh (as ++ '\n' :: bs) =
      inset margin fresh as ++ '\n' :: inset margin true bs := by
  induction as generalizing fresh with
  | nil => cases fresh <;> rfl
  | cons c as ih =>
    rw [List.cons_append, inset, inset]
    split
    · rw [ih, List.cons_append]
    · rw [ih, List.append_assoc, List.cons_append]

theorem inset_piece (h : c ≠ '\n') (as bs : List Char) :
    inset margin false (as ++ c :: bs) = shift margin as ++ inset margin false (c :: bs) := by
  induction as with
  | nil => rfl
  | cons a as ih =>
    rw [List.cons_append, inset, shift]
    by_cases ha : a = '\n'
    · cases as with
      | nil => simp [ha, shift, inset_fresh h]
      | cons next as =>
        -- two newlines in a row have an empty line between them
        by_cases hnext : next = '\n'
        · simpa [ha, hnext, inset] using ih
        · simp only [ha, hnext, List.head?_cons, Option.some.injEq, ne_eq, not_false_eq_true,
            and_self, ↓reduceIte]
          rw [List.cons_append] at ih
          rw [List.cons_append, inset_fresh hnext, ih, List.cons_append, List.append_assoc]
    · simp only [ha, false_and, ↓reduceIte, Bool.false_eq_true, List.nil_append]
      rw [ih, List.cons_append]

theorem inset_inset {inner : List Char} (h : '\n' ∉ inner) (outer : List Char) (fresh : Bool)
    (cs : List Char) :
    inset outer fresh (inset inner fresh cs) = inset (outer ++ inner) fresh cs := by
  induction cs generalizing fresh with
  | nil => simp
  | cons c cs ih =>
    rw [inset, inset]
    by_cases hc : c = '\n'
    · simp [hc, inset, ih]
    · have hrest : inset outer false (c :: inset inner false cs) =
          c :: inset (outer ++ inner) false cs := by
        simp [inset, hc, ih]
      cases fresh with
      | false => simpa [hc] using hrest
      | true =>
        simp only [hc, ↓reduceIte, List.append_assoc]
        cases inner with
        | nil => rw [List.nil_append, inset_fresh hc, hrest, List.nil_append]
        | cons i inner =>
          have hi : i ≠ '\n' := fun heq => h (heq ▸ List.mem_cons_self)
          rw [List.cons_append, inset_fresh hi, ← List.cons_append, inset_line outer h, hrest]

theorem inset_empty (fresh : Bool) (cs : List Char) : inset [] fresh cs = cs := by
  induction cs generalizing fresh with
  | nil => simp
  | cons c cs ih => simp [inset, ih]

theorem mem_inset (h : c ∈ inset margin fresh cs) : c ∈ margin ∨ c ∈ cs := by
  induction cs generalizing fresh with
  | nil => simp at h
  | cons c' cs ih =>
    rw [inset] at h
    split at h
    · rcases List.mem_cons.1 h with rfl | h
      · exact .inr List.mem_cons_self
      · exact (ih h).imp_right (List.mem_cons_of_mem c')
    · rcases List.mem_append.1 h with h | h
      · cases fresh with
        | false => exact nomatch h
        | true => exact .inl h
      · rcases List.mem_cons.1 h with rfl | h
        · exact .inr List.mem_cons_self
        · exact (ih h).imp_right (List.mem_cons_of_mem c')

/-! Pieces. -/

theorem shift_line (margin : List Char) (h : '\n' ∉ line) (cs : List Char) :
    shift margin (line ++ cs) = line ++ shift margin cs := by
  induction line with
  | nil => rfl
  | cons c line ih =>
    obtain ⟨hc, hline⟩ := not_or.1 (List.mem_cons.not.1 h)
    simp [shift, Ne.symm hc, ih hline]

theorem shift_of_oneLine (h : '\n' ∉ cs) : shift margin cs = cs := by
  have hline := shift_line margin h []
  rwa [List.append_nil, shift, List.append_nil] at hline

theorem shift_empty (cs : List Char) : shift [] cs = cs := by
  induction cs with
  | nil => rfl
  | cons c cs ih => simp [shift, ih]

theorem length_le_shift (margin cs : List Char) : cs.length ≤ (shift margin cs).length := by
  induction cs with
  | nil => exact Nat.le_refl 0
  | cons c cs ih =>
    rw [shift]
    split <;> simp only [List.length_cons, List.length_append] <;> omega

theorem length_lt_shift (hmargin : margin ≠ []) (h : '\n' ∈ cs) :
    cs.length < (shift margin cs).length := by
  have hpos := List.length_pos_iff.2 hmargin
  induction cs with
  | nil => exact nomatch h
  | cons c cs ih =>
    rw [shift]
    split
    · have hle := length_le_shift margin cs
      simp only [List.length_cons, List.length_append]
      omega
    · next hlast =>
      have hmem : '\n' ∈ cs := by
        rcases List.mem_cons.1 h with rfl | hmem
        · exact List.mem_of_head? (by simpa using hlast)
        · exact hmem
      simpa using ih hmem

theorem shift_eq_self_iff : shift margin cs = cs ↔ margin = [] ∨ '\n' ∉ cs := by
  constructor
  · intro heq
    by_contra hnot
    obtain ⟨hmargin, hmem⟩ := not_or.1 hnot
    have hlt := length_lt_shift hmargin (not_not.1 hmem)
    rw [heq] at hlt
    exact Nat.lt_irrefl _ hlt
  · rintro (rfl | hline)
    · exact shift_empty cs
    · exact shift_of_oneLine hline

/-- Characters may be replaced before or after, if only newlines are replaced by what holds one. -/
theorem shift_flatMap {g : Char → List Char} (hmargin : margin.flatMap g = margin)
    (hnewline : g '\n' = ['\n']) (h : ∀ c, c ≠ '\n' → g c ≠ [] ∧ '\n' ∉ g c) (cs : List Char) :
    shift margin (cs.flatMap g) = (shift margin cs).flatMap g := by
  induction cs with
  | nil => rfl
  | cons c cs ih =>
    rw [List.flatMap_cons, shift]
    by_cases hc : c = '\n'
    · have hhead : (cs.flatMap g).head? = some '\n' ↔ cs.head? = some '\n' := by
        cases cs with
        | nil => exact Iff.rfl
        | cons next cs =>
          by_cases hnext : next = '\n'
          · simp [hnext, hnewline]
          · obtain ⟨hne, hnone⟩ := h next hnext
            obtain ⟨a, as, heq⟩ := List.exists_cons_of_ne_nil hne
            have ha : a ≠ '\n' := by
              rintro rfl
              exact hnone (heq ▸ List.mem_cons_self)
            simp [heq, hnext, ha]
      rw [hc, hnewline, List.singleton_append, shift]
      simp only [ne_eq, hhead, ih]
      split <;> simp [hnewline, hmargin]
    · simp only [hc, false_and, ↓reduceIte, List.flatMap_cons]
      rw [shift_line margin (h c hc).2, ih]

end

theorem shifted_eq_self_iff {margin text : String} :
    shifted margin text = text ↔ margin = "" ∨ OneLine text := by
  rw [shifted, ← String.toList_inj, String.toList_ofList, shift_eq_self_iff,
    String.toList_eq_nil_iff]
  rfl

end Text

namespace Format

variable {f : Format}

theorem toList_indentLine {line : String} (h : Text.OneLine line) :
    (f.indentLine line).toList = Text.inset f.indentUnit.toList true line.toList := by
  unfold indentLine
  split
  · next hempty => simp [hempty]
  · next hne =>
    obtain ⟨c, cs, heq⟩ := List.exists_cons_of_ne_nil (String.toList_eq_nil_iff.not.2 hne)
    rw [Text.OneLine, heq] at h
    have hc : c ≠ '\n' := by
      rintro rfl
      exact h List.mem_cons_self
    rw [String.toList_append, heq, Text.inset_fresh hc, Text.inset_of_oneLine _ h]

theorem toList_indentLines {lines : List String} (h : ∀ line ∈ lines, Text.OneLine line) :
    ("\n".intercalate (lines.map f.indentLine)).toList =
      Text.inset f.indentUnit.toList true ("\n".intercalate lines).toList := by
  induction lines with
  | nil => simp
  | cons line lines ih =>
    obtain ⟨hline, hlines⟩ := List.forall_mem_cons.1 h
    cases lines with
    | nil => simpa using toList_indentLine hline
    | cons next lines =>
      have hnewline : "\n".toList = ['\n'] := rfl
      have hrest := ih hlines
      rw [List.map_cons] at hrest
      rw [List.map_cons, List.map_cons, String.intercalate_cons_cons,
        String.intercalate_cons_cons]
      simp only [String.toList_append, hnewline, List.append_assoc, List.singleton_append]
      rw [Text.inset_newline, toList_indentLine hline, hrest]

theorem toList_indent (h : f.lineTerminator = "\n") (text : String) :
    (f.indent text).toList = Text.inset f.indentUnit.toList true text.toList := by
  rw [indent, h, toList_indentLines fun line => Text.oneLine_of_mem_splitOn,
    Text.intercalate_splitOn (by decide)]

end Format

end Scribe
