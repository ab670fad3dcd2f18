import Scribe.Proofs.Layout.Line
import Mathlib.Logic.Function.Iterate

/-!
Indentation, line by line. Where the unit has no character of the terminator, a line begins and ends
in an indented text just where it does in the text itself, whatever else stands in the lines: of CR
and LF one may well stand there without the other. So the lines of an indented text are the indented
lines, and those of a block are the indented lines of its body between the braces.
-/
namespace Scribe

namespace Text

theorem not_infix_append {sep as bs : List Char} (hsep : sep ≠ []) (has : ∀ c ∈ as, c ∉ sep)
    (hbs : ¬ sep <:+: bs) : ¬ sep <:+: as ++ bs := by
  induction as with
  | nil => exact hbs
  | cons a as ih =>
    obtain ⟨ha, has⟩ := List.forall_mem_cons.1 has
    rw [List.cons_append, List.infix_cons_iff]
    rintro (hbegins | hinfix)
    · obtain ⟨c, cs, rfl⟩ := List.exists_cons_of_ne_nil hsep
      obtain ⟨rfl, -⟩ := List.cons_prefix_cons.1 hbegins
      exact ha List.mem_cons_self
    · exact ih has hinfix

end Text

namespace Format

def linesOf (f : Format) (text : String) : List String := Text.splitOn f.lineTerminator text

def outdentLine (f : Format) (line : String) : String :=
  if f.indentUnit.toList.isPrefixOf line.toList then
    .ofList (line.toList.drop f.indentUnit.toList.length)
  else line

def outdent (f : Format) (text : String) : String :=
  f.lineTerminator.intercalate ((f.linesOf text).map f.outdentLine)

def indentLineBy (f : Format) (n : Nat) (line : String) : String :=
  if line = "" then "" else Text.times n f.indentUnit ++ line

variable {f : Format}

theorem outdentLine_indentLine (line : String) : f.outdentLine (f.indentLine line) = line := by
  unfold indentLine
  split
  · next hempty =>
    rw [hempty, outdentLine]
    split
    · rw [String.toList_empty, List.drop_nil, String.ofList_nil]
    · rfl
  · have hbegins : f.indentUnit.toList.isPrefixOf (f.indentUnit ++ line).toList = true := by
      rw [String.toList_append]
      exact List.isPrefixOf_iff_prefix.2 (List.prefix_append _ _)
    rw [outdentLine, if_pos hbegins, String.toList_append, List.drop_left, String.ofList_toList]

theorem indentLineBy_zero (line : String) : f.indentLineBy 0 line = line := by
  unfold indentLineBy
  split
  · next hempty => exact hempty.symm
  · exact String.empty_append

theorem indentLine_indentLineBy (n : Nat) (line : String) :
    f.indentLine (f.indentLineBy n line) = f.indentLineBy (n + 1) line := by
  unfold indentLine indentLineBy
  by_cases hempty : line = ""
  · simp [hempty]
  · have hne : Text.times n f.indentUnit ++ line ≠ "" := fun h =>
      hempty (String.append_eq_empty_iff.1 h).2
    rw [if_neg hempty, if_neg hempty, if_neg hne, Text.times_succ, String.append_assoc]

theorem block_ne_empty (body : String) : f.block body ≠ "" := by
  unfold block
  split
  · decide
  · simp [String.append_eq_empty_iff]

section

variable (hterminator : Text.EndsLine f.lineTerminator)

include hterminator

theorem linesOf_ne_nil (text : String) : f.linesOf text ≠ [] :=
  Text.splitOn_ne_nil hterminator.ne_empty text

theorem indent_append (a b : String) :
    f.indent (a ++ f.lineTerminator ++ b) = f.indent a ++ f.lineTerminator ++ f.indent b := by
  have hne (text : String) : (f.linesOf text).map f.indentLine ≠ [] :=
    List.map_eq_nil_iff.not.2 (linesOf_ne_nil hterminator text)
  rw [indent, Text.splitOn_append hterminator, List.map_append]
  exact String.intercalate_append_of_ne_nil (hne a) (hne b)

variable (hunit : ∀ c ∈ f.indentUnit.toList, c ∉ f.lineTerminator.toList)

include hunit

theorem linesOf_indent (text : String) :
    f.linesOf (f.indent text) = (f.linesOf text).map f.indentLine := by
  have hne := linesOf_ne_nil hterminator text
  have hsep : f.lineTerminator.toList ≠ [] := String.toList_eq_nil_iff.not.2 hterminator.ne_empty
  have hfree : ∀ line ∈ (f.linesOf text).map f.indentLine,
      ¬ f.lineTerminator.toList <:+: line.toList := by
    rw [List.forall_mem_map]
    intro line hline
    have hline := Text.not_infix_of_mem_splitOn hterminator.ne_empty hline
    unfold indentLine
    split
    · rw [String.toList_empty, List.infix_nil]
      exact hsep
    · rw [String.toList_append]
      exact Text.not_infix_append hsep hunit hline
  obtain ⟨init, hinit, htoList⟩ := hterminator
  exact Text.splitOn_intercalate_of_free hinit htoList (List.map_eq_nil_iff.not.2 hne) hfree

theorem outdent_indent (text : String) : f.outdent (f.indent text) = text := by
  have hlines : (f.linesOf (f.indent text)).map f.outdentLine = f.linesOf text := by
    rw [linesOf_indent hterminator hunit, List.map_map]
    exact (List.map_congr_left fun line _ => outdentLine_indentLine line).trans (List.map_id _)
  rw [outdent, hlines, linesOf, Text.intercalate_splitOn hterminator.ne_empty]

theorem linesOf_block {body : String} (hbody : body ≠ "") :
    f.linesOf (f.block body) = "\x7b" :: (f.linesOf body).map f.indentLine ++ ["\x7d"] := by
  have hline {line : String} (h : Text.OneLine line) : f.linesOf line = [line] := by
    have hcut := Text.splitOn_intercalate hterminator (List.cons_ne_nil line [])
      (List.forall_mem_singleton.2 h)
    rwa [String.intercalate_singleton] at hcut
  have hopen : f.linesOf "\x7b" = ["\x7b"] := hline (by decide)
  have hclose : f.linesOf "\x7d" = ["\x7d"] := hline (by decide)
  rw [block, if_neg hbody, linesOf, Text.splitOn_append hterminator,
    Text.splitOn_append hterminator]
  change f.linesOf "\x7b" ++ f.linesOf (f.indent body) ++ f.linesOf "\x7d" = _
  rw [hopen, hclose, linesOf_indent hterminator hunit]
  rfl

/-- Blocks in one another: the braces of each stand one level deeper than those around it, and the
body stands as deep as there are blocks. -/
theorem linesOf_iterate_block {body : String} (hbody : body ≠ "") (n : Nat) :
    f.linesOf (f.block^[n] body) =
      (List.range n).map (f.indentLineBy · "\x7b") ++ (f.linesOf body).map (f.indentLineBy n)
        ++ (List.range n).reverse.map (f.indentLineBy · "\x7d") := by
  induction n with
  | zero =>
    have hlines : (f.linesOf body).map (f.indentLineBy 0) = f.linesOf body :=
      (List.map_congr_left fun line _ => indentLineBy_zero line).trans (List.map_id _)
    rw [hlines]
    exact (List.append_nil _).symm
  | succ n ih =>
    have hne : f.block^[n] body ≠ "" := by
      cases n with
      | zero => exact hbody
      | succ n =>
        rw [Function.iterate_succ_apply']
        exact block_ne_empty _
    have hbrace (brace : String) (levels : List Nat) :
        (levels.map (f.indentLineBy · brace)).map f.indentLine =
          (levels.map (· + 1)).map (f.indentLineBy · brace) := by
      rw [List.map_map, List.map_map]
      exact List.map_congr_left fun level _ => indentLine_indentLineBy level brace
    have hlines : ((f.linesOf body).map (f.indentLineBy n)).map f.indentLine =
        (f.linesOf body).map (f.indentLineBy (n + 1)) := by
      rw [List.map_map]
      exact List.map_congr_left fun line _ => indentLine_indentLineBy n line
    rw [Function.iterate_succ_apply', linesOf_block hterminator hunit hne, ih,
      List.range_succ_eq_map, List.map_append, List.map_append, hbrace, hbrace, hlines]
    simp [indentLineBy_zero]

end

/-- Indentation works on the lines of a text, each on its own. -/
structure Indents (f : Format) : Prop where
  append : ∀ a b,
    f.indent (a ++ f.lineTerminator ++ b) = f.indent a ++ f.lineTerminator ++ f.indent b
  lines : ∀ text, f.linesOf (f.indent text) =
    (f.linesOf text).map fun line => if line = "" then "" else f.indentUnit ++ line
  length : ∀ text, (f.linesOf (f.indent text)).length = (f.linesOf text).length
  outdent : ∀ text, f.outdent (f.indent text) = text
  /-- Blocks in one another have the lines of the body between their braces. -/
  block : ∀ body, body ≠ "" → ∀ n, f.linesOf (f.block^[n] body) =
    (List.range n).map (Text.times · f.indentUnit ++ "\x7b")
      ++ (f.linesOf body).map
        (fun line => if line = "" then "" else Text.times n f.indentUnit ++ line)
      ++ (List.range n).reverse.map (Text.times · f.indentUnit ++ "\x7d")

/-- Where lines end with LF or with CR and LF, and the unit has neither of them, indentation works
on lines, whatever stands in these. -/
theorem indents_of_terminator
    (hterminator : f.lineTerminator = "\n" ∨ f.lineTerminator = "\r\n")
    (hunit : '\r' ∉ f.indentUnit.toList ∧ '\n' ∉ f.indentUnit.toList) : f.Indents := by
  have hends := Text.endsLine_of_eq hterminator
  have hnone : ∀ c ∈ f.indentUnit.toList, c ∉ f.lineTerminator.toList := by
    intro c hc hmem
    have hbreak : c = '\r' ∨ c = '\n' := by
      rcases hterminator with heq | heq <;> rw [heq] at hmem
      · exact .inr (List.mem_singleton.1 hmem)
      · simpa using hmem
    rcases hbreak with rfl | rfl
    · exact hunit.1 hc
    · exact hunit.2 hc
  refine ⟨indent_append hends, linesOf_indent hends hnone, fun text => ?length,
    outdent_indent hends hnone, fun body hbody n => ?block⟩
  case length => rw [linesOf_indent hends hnone, List.length_map]
  case block => exact linesOf_iterate_block hends hnone hbody n

theorem indents_strays :
    let f : Format := { indentUnit := "\t", lineTerminator := "\r\n" }
    (f.lineTerminator = "\n" ∨ f.lineTerminator = "\r\n")
      ∧ ('\r' ∉ f.indentUnit.toList ∧ '\n' ∉ f.indentUnit.toList) ∧ f.Indents
      ∧ f.indent ("a\r" ++ "\r\n" ++ "\n\r\n\r\nb") = "\ta\r\r\n\t\n\r\n\r\n\tb"
      ∧ f.linesOf (f.block^[2] "a\r\r\n\r\n\nb") =
        ["\x7b", "\t\x7b", "\t\ta\r", "", "\t\t\nb", "\t\x7d", "\x7d"] := by
  intro f
  have hterminator : f.lineTerminator = "\n" ∨ f.lineTerminator = "\r\n" := .inr rfl
  have hunit : '\r' ∉ f.indentUnit.toList ∧ '\n' ∉ f.indentUnit.toList := by decide
  have hindents := indents_of_terminator hterminator hunit
  refine ⟨hterminator, hunit, hindents, ?_, ?_⟩
  · decide +kernel
  · rw [hindents.block _ (by decide) 2]
    decide +kernel

end Format

end Scribe
