import Scribe.Text.Split
import Mathlib.Data.List.TakeWhile

/-!
Cutting and joining undo each other: the pieces of a text with the separator between them are the
text again, and pieces in which a line terminator does not stand are those of the text they make
when they are joined with it.
-/
namespace Scribe.Text

/-! Joining what was cut. -/

theorem cut_ne_nil (sep : List Char) (cs : List Char) : ∀ (skip : Nat) (piece : List Char),
    cut sep skip piece [] cs ≠ [] := by
  induction cs with
  | nil => intro skip piece; cases skip <;> simp [cut]
  | cons c cs ih =>
    intro skip piece
    cases skip with
    | succ skip => exact ih skip piece
    | zero =>
      rw [cut]
      split
      · rw [cut_eq_append]
        simp
      · exact ih 0 _

theorem splitOn_ne_nil {sep : String} (h : sep ≠ "") (text : String) : splitOn sep text ≠ [] := by
  rw [splitOn, if_neg h]
  exact List.map_eq_nil_iff.not.2 (cut_ne_nil _ _ _ _)

theorem intercalate_cut (sep : List Char) (h : sep ≠ []) (cs : List Char) :
    ∀ (skip : Nat) (piece : List Char),
      sep.intercalate (cut sep skip piece [] cs) = piece.reverse ++ cs.drop skip := by
  induction cs with
  | nil => intro skip piece; cases skip <;> simp [cut]
  | cons c cs ih =>
    intro skip piece
    cases skip with
    | succ skip => exact ih skip piece
    | zero =>
      rw [cut]
      split
      · next hprefix =>
        obtain ⟨rest, hrest⟩ := List.isPrefixOf_iff_prefix.1 hprefix
        have hlength : 0 < sep.length := List.length_pos_iff.2 h
        have hdrop : cs.drop (sep.length - 1) = rest := by
          have hcons : (c :: cs).drop (sep.length - 1 + 1) = cs.drop (sep.length - 1) := rfl
          rw [← hcons, Nat.sub_add_cancel hlength, ← hrest, List.drop_left]
        rw [cut_eq_append, List.reverse_singleton, List.singleton_append,
          List.intercalate_cons_of_ne_nil (cut_ne_nil _ _ _ _), ih, hdrop, List.reverse_nil,
          List.nil_append, List.append_assoc, hrest, List.drop_zero]
      · rw [ih 0 (c :: piece)]
        simp

theorem intercalate_splitOn {sep : String} (h : sep ≠ "") (text : String) :
    sep.intercalate (splitOn sep text) = text := by
  apply String.toList_inj.1
  rw [String.toList_intercalate, splitOn, if_neg h, List.map_map]
  have hid : String.toList ∘ String.ofList = id := funext fun _ => String.toList_ofList
  rw [hid, List.map_id, intercalate_cut _ (fun hnil => h (String.toList_eq_nil_iff.1 hnil))]
  rfl

/-! Cutting what was joined. -/

def OneLine (text : String) : Prop := '\n' ∉ text.toList

instance (text : String) : Decidable (OneLine text) := inferInstanceAs (Decidable (_ ∉ _))

/-- A text that ends a line: its last character, and no other, is a newline. -/
def EndsLine (sep : String) : Prop := ∃ init, '\n' ∉ init ∧ sep.toList = init ++ ['\n']

theorem endsLine_of_eq {sep : String} (h : sep = "\n" ∨ sep = "\r\n") : EndsLine sep := by
  rcases h with rfl | rfl
  · exact ⟨[], List.not_mem_nil, rfl⟩
  · exact ⟨['\r'], by decide, rfl⟩

theorem EndsLine.ne_empty {sep : String} (h : EndsLine sep) : sep ≠ "" := by
  rintro rfl
  obtain ⟨init, -, hsep⟩ := h
  simp at hsep

section

variable {e : Char} {sep init piece line rest : List Char}

theorem cut_skip (skipped : List Char) :
    cut sep skipped.length piece [] (skipped ++ rest) = cut sep 0 piece [] rest := by
  induction skipped with
  | nil => rfl
  | cons c skipped ih => exact ih

theorem cut_sep (h : sep ≠ []) :
    cut sep 0 piece [] (sep ++ rest) = piece.reverse :: cut sep 0 [] [] rest := by
  obtain ⟨c, skipped, rfl⟩ := List.exists_cons_of_ne_nil h
  have hprefix : (c :: skipped).isPrefixOf (c :: (skipped ++ rest)) = true :=
    List.isPrefixOf_iff_prefix.2 (List.prefix_append _ rest)
  rw [List.cons_append, cut, if_pos hprefix, cut_eq_append, List.length_cons, Nat.add_sub_cancel,
    cut_skip]
  rfl

theorem takeWhile_line (h : e ∉ line) : (line ++ e :: rest).takeWhile (· != e) = line := by
  have hne : ∀ c ∈ line, (c != e) = true := by
    intro c hc
    rw [bne_iff_ne]
    rintro rfl
    exact h hc
  rw [List.takeWhile_append_of_pos hne, List.takeWhile_cons, bne_self_eq_false]
  exact List.append_nil line

/-- A separator does not begin within a piece, as its last character stands nowhere else in it. -/
theorem isPrefixOf_line {c : Char} (hinit : e ∉ init) (h : ¬ init ++ [e] <:+: c :: line) :
    (init ++ [e]).isPrefixOf (c :: line ++ (init ++ e :: rest)) = false := by
  rw [← Bool.not_eq_true, List.isPrefixOf_iff_prefix]
  rintro ⟨rest', heq⟩
  rcases List.append_eq_append_iff.1 heq with ⟨beyond, hline, -⟩ | ⟨beyond, hsep, hrest⟩
  · exact h (hline ▸ (List.prefix_append _ beyond).isInfix)
  · rcases List.eq_nil_or_concat beyond with rfl | ⟨beyond, last, rfl⟩
    · rw [List.append_nil] at hsep
      exact h (hsep ▸ List.infix_refl _)
    · rw [List.concat_eq_append, ← List.append_assoc] at hsep
      obtain ⟨rfl, hlast⟩ := List.append_inj' hsep rfl
      obtain rfl := List.singleton_inj.1 hlast
      have hbeyond : e ∉ beyond := fun hmem => hinit (List.mem_append_right _ hmem)
      rw [List.concat_eq_append, List.append_assoc beyond, List.singleton_append] at hrest
      have hbefore := congrArg (·.takeWhile (· != e)) hrest
      simp only [takeWhile_line hinit, takeWhile_line hbeyond] at hbefore
      have hlength := congrArg List.length hbefore
      simp only [List.length_append, List.length_cons] at hlength
      omega

theorem cut_line (hinit : e ∉ init) (h : ¬ init ++ [e] <:+: line) :
    cut (init ++ [e]) 0 piece [] (line ++ (init ++ e :: rest)) =
      (piece.reverse ++ line) :: cut (init ++ [e]) 0 [] [] rest := by
  induction line generalizing piece with
  | nil =>
    have hsep := @cut_sep (init ++ [e]) piece rest (by simp)
    rwa [List.append_assoc, List.singleton_append, ← List.append_nil piece.reverse] at hsep
  | cons c line ih =>
    have hline : ¬ init ++ [e] <:+: line := fun hinfix => h (List.infix_cons hinfix)
    rw [List.cons_append, cut, ← List.cons_append, isPrefixOf_line hinit h,
      if_neg Bool.false_ne_true, ih hline, List.reverse_cons, List.append_assoc,
      List.singleton_append]

theorem cut_last (h : ¬ sep <:+: line) :
    cut sep 0 piece [] line = [piece.reverse ++ line] := by
  induction line generalizing piece with
  | nil => simp [cut]
  | cons c line ih =>
    have hline : ¬ sep <:+: line := fun hinfix => h (List.infix_cons hinfix)
    have hprefix : sep.isPrefixOf (c :: line) = false := by
      rw [← Bool.not_eq_true, List.isPrefixOf_iff_prefix]
      exact fun hbegins => h hbegins.isInfix
    rw [cut, hprefix, if_neg Bool.false_ne_true, ih hline, List.reverse_cons, List.append_assoc,
      List.singleton_append]

theorem cut_intercalate {lines : List (List Char)} (hinit : e ∉ init) (hne : lines ≠ [])
    (h : ∀ line ∈ lines, ¬ init ++ [e] <:+: line) :
    cut (init ++ [e]) 0 [] [] ((init ++ [e]).intercalate lines) = lines := by
  induction lines with
  | nil => exact absurd rfl hne
  | cons line lines ih =>
    obtain ⟨hline, hlines⟩ := List.forall_mem_cons.1 h
    cases lines with
    | nil => rw [List.intercalate_singleton, cut_last hline]; rfl
    | cons next lines =>
      rw [List.intercalate_cons_cons, List.append_assoc, List.append_assoc,
        List.singleton_append, cut_line hinit hline, ih (List.cons_ne_nil _ _) hlines]
      rfl

theorem splitOn_intercalate_of_free {sep : String} {pieces : List String} (hinit : e ∉ init)
    (hsep : sep.toList = init ++ [e]) (hne : pieces ≠ [])
    (h : ∀ p ∈ pieces, ¬ sep.toList <:+: p.toList) :
    splitOn sep (sep.intercalate pieces) = pieces := by
  have hsep_ne : sep ≠ "" := by
    rintro rfl
    simp at hsep
  have hpieces : ∀ piece ∈ pieces.map String.toList, ¬ init ++ [e] <:+: piece := by
    rw [List.forall_mem_map, ← hsep]
    exact h
  rw [splitOn, if_neg hsep_ne, String.toList_intercalate, hsep,
    cut_intercalate hinit (by simpa using hne) hpieces, List.map_map]
  simp

theorem splitOn_intercalate_of_notMem {sep : String} {pieces : List String} (hinit : e ∉ init)
    (hsep : sep.toList = init ++ [e]) (hne : pieces ≠ []) (h : ∀ p ∈ pieces, e ∉ p.toList) :
    splitOn sep (sep.intercalate pieces) = pieces := by
  refine splitOn_intercalate_of_free hinit hsep hne fun p hp hinfix => h p hp ?_
  exact hinfix.subset (by simp [hsep])

/-- A piece does not have the separator in it; what has been read of it, nowhere begins with one. -/
theorem not_infix_of_mem_cut {cs : List Char} {skip : Nat} (hsep : sep ≠ [])
    (hpiece : ∀ before after, after ≠ [] → piece.reverse = before ++ after →
      ¬ sep <+: after ++ cs.drop skip)
    (h : line ∈ cut sep skip piece [] cs) : ¬ sep <:+: line := by
  have hread {piece cs : List Char} (hpiece : ∀ before after, after ≠ [] →
      piece.reverse = before ++ after → ¬ sep <+: after ++ cs) : ¬ sep <:+: piece.reverse := by
    rintro ⟨before, after, heq⟩
    refine hpiece before (sep ++ after) (by simp [hsep]) (by rw [← heq, List.append_assoc]) ?_
    exact List.append_assoc sep after _ ▸ List.prefix_append sep _
  induction cs generalizing skip piece with
  | nil =>
    have hline : line = piece.reverse := by cases skip <;> exact List.mem_singleton.1 h
    exact hline ▸ hread hpiece
  | cons c cs ih =>
    cases skip with
    | succ skip => exact ih hpiece h
    | zero =>
      rw [cut] at h
      split at h
      · rw [cut_eq_append] at h
        rcases List.mem_append.1 h with h | h
        · exact List.mem_singleton.1 h ▸ hread hpiece
        · exact ih (fun _ _ hne hnil => absurd (List.append_eq_nil_iff.1 hnil.symm).2 hne) h
      · next hprefix =>
        refine ih (fun before after hne heq => ?_) h
        -- what is read ends with this character, with which no separator begins
        obtain rfl | ⟨after, last, rfl⟩ := List.eq_nil_or_concat after
        · exact absurd rfl hne
        rw [List.concat_eq_append, List.reverse_cons, ← List.append_assoc] at heq
        obtain ⟨hbefore, hlast⟩ := List.append_inj' heq rfl
        obtain rfl := List.singleton_inj.1 hlast
        rw [List.concat_eq_append, List.append_assoc, List.singleton_append, List.drop_zero]
        cases after with
        | nil => exact fun hbegins => hprefix (List.isPrefixOf_iff_prefix.2 hbegins)
        | cons a after => exact hpiece before (a :: after) (List.cons_ne_nil a after) hbefore

theorem not_infix_of_mem_splitOn {sep text p : String} (hsep : sep ≠ "")
    (h : p ∈ splitOn sep text) : ¬ sep.toList <:+: p.toList := by
  rw [splitOn, if_neg hsep] at h
  obtain ⟨cs, hcs, rfl⟩ := List.mem_map.1 h
  rw [String.toList_ofList]
  refine not_infix_of_mem_cut (String.toList_eq_nil_iff.not.2 hsep) (fun _ _ hne hnil => ?_) hcs
  exact absurd (List.append_eq_nil_iff.1 hnil.symm).2 hne

end

/-- Lines with a terminator between them are the pieces of the text they make. -/
theorem splitOn_intercalate {sep : String} {lines : List String} (hsep : EndsLine sep)
    (hne : lines ≠ []) (h : ∀ line ∈ lines, OneLine line) :
    splitOn sep (sep.intercalate lines) = lines := by
  obtain ⟨init, hinit, htoList⟩ := hsep
  exact splitOn_intercalate_of_notMem hinit htoList hne h

theorem splitOn_append {sep : String} (hsep : EndsLine sep) (a b : String) :
    splitOn sep (a ++ sep ++ b) = splitOn sep a ++ splitOn sep b := by
  have hne (text : String) : splitOn sep text ≠ [] := splitOn_ne_nil hsep.ne_empty text
  have htext : a ++ sep ++ b = sep.intercalate (splitOn sep a ++ splitOn sep b) := by
    rw [String.intercalate_append_of_ne_nil (hne a) (hne b),
      intercalate_splitOn hsep.ne_empty, intercalate_splitOn hsep.ne_empty]
  have hfree : ∀ p ∈ splitOn sep a ++ splitOn sep b, ¬ sep.toList <:+: p.toList := by
    rw [List.forall_mem_append]
    exact ⟨fun _ => not_infix_of_mem_splitOn hsep.ne_empty,
      fun _ => not_infix_of_mem_splitOn hsep.ne_empty⟩
  obtain ⟨init, hinit, htoList⟩ := hsep
  rw [htext, splitOn_intercalate_of_free hinit htoList (by simp [hne a]) hfree]

theorem oneLine_of_mem_splitOn {text line : String} (h : line ∈ splitOn "\n" text) :
    OneLine line := by
  intro hmem
  refine not_infix_of_mem_splitOn (by decide) h ?_
  obtain ⟨before, after, heq⟩ := List.append_of_mem hmem
  exact ⟨before, after, by rw [heq, List.append_assoc]; rfl⟩

end Scribe.Text
