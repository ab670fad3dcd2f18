import Scribe.Proofs.Java.Page
import Scribe.Proofs.Markup.Layout
import Scribe.Proofs.Whole

/-!
A format decides the layout of a text and nothing else: the lines of a file or a document, with
their levels, and the names that are used, are the same in every format.
-/
namespace Scribe

open Text (OneLine)

namespace Text

def toCrlf (c : Char) : List Char := if c = '\n' then ['\r', '\n'] else [c]

theorem substitute_append (f : Char → List Char) (a b : String) :
    substitute f (a ++ b) = substitute f a ++ substitute f b := by
  apply String.toList_inj.1
  simp only [toList_substitute, String.toList_append, List.flatMap_append]

theorem substitute_toCrlf_of_oneLine {text : String} (h : OneLine text) :
    substitute toCrlf text = text := by
  apply String.toList_inj.1
  rw [toList_substitute]
  have hsame (cs : List Char) (hcs : '\n' ∉ cs) : cs.flatMap toCrlf = cs := by
    induction cs with
    | nil => rfl
    | cons c cs ih =>
      rw [List.mem_cons, not_or] at hcs
      rw [List.flatMap_cons, ih hcs.2, toCrlf, if_neg (Ne.symm hcs.1)]
      rfl
  exact hsame _ h

theorem substitute_toCrlf_newline : substitute toCrlf "\n" = "\r\n" := by decide

end Text

namespace Format

variable {unit : String}

theorem regular_lf (h : OneLine unit) : Regular ⟨unit, "\n"⟩ := ⟨h, .inl rfl⟩

theorem regular_crlf (h : OneLine unit) : Regular ⟨unit, "\r\n"⟩ := ⟨h, .inr rfl⟩

theorem typeset_crlf (h : OneLine unit) (ls : List Line) :
    Format.typeset ⟨unit, "\r\n"⟩ ls =
      Text.substitute Text.toCrlf (Format.typeset ⟨unit, "\n"⟩ ls) := by
  have hline (l : Line) : Text.substitute Text.toCrlf (l.text ⟨unit, "\n"⟩) =
      l.text ⟨unit, "\r\n"⟩ :=
    Text.substitute_toCrlf_of_oneLine (l.oneLine_text (regular_lf h))
  cases ls with
  | nil => simp [typeset, Text.substitute]
  | cons l ls =>
    rw [typeset_cons, typeset_cons, Text.substitute_append, hline]
    congr 1
    induction ls with
    | nil => simp [Text.substitute]
    | cons l ls ih =>
      simp only [List.map_cons, String.join_cons, Text.substitute_append, hline, ih,
        Text.substitute_toCrlf_newline]

theorem page_crlf (h : OneLine unit) (ls : List Line) :
    Format.page ⟨unit, "\r\n"⟩ ls = Text.substitute Text.toCrlf (Format.page ⟨unit, "\n"⟩ ls) := by
  have hempty : Format.typeset ⟨unit, "\r\n"⟩ ls = "" ↔ Format.typeset ⟨unit, "\n"⟩ ls = "" := by
    cases ls with
    | nil => simp [typeset]
    | cons l ls =>
      rw [(regular_crlf h).typeset_eq_empty_iff, (regular_lf h).typeset_eq_empty_iff]
  unfold page
  dsimp only
  by_cases hlf : Format.typeset ⟨unit, "\n"⟩ ls = ""
  · rw [if_pos hlf, if_pos (hempty.2 hlf)]
    simp [Text.substitute]
  · rw [if_neg hlf, if_neg (mt hempty.1 hlf), Text.substitute_append, typeset_crlf h,
      Text.substitute_toCrlf_newline]

end Format

theorem Binding.render_of_pagedBy {b : Binding} {n : Node} {Q : List Line → Prop} (hnil : Q [])
    (h : ∀ remaining, Uniform (fun f => b.below f.1 remaining {} n) (PagedBy Q)
      fun f => b.script ⟨f.1, Stack.push {} n⟩ n) (ignored : List IgnorePattern) (maxDepth : Nat) :
    ∃ ls e, Q ls ∧ ∀ f : Format, f.Regular → (b.session { ignored } f maxDepth).render n =
      (if maxDepth = 0 then none else some (f.page ls), b.session e f maxDepth) := by
  cases maxDepth with
  | zero => exact ⟨[], { ignored }, hnil, fun f _ => rfl⟩
  | succ remaining =>
    obtain ⟨t, e, ⟨ls, hls, rfl⟩, -, hrun⟩ := h remaining { ignored } nofun
    refine ⟨ls, e, hls, fun f hf => ?_⟩
    rw [b.render_session, b.text_first, b.dependencies_first, hrun ⟨f, hf⟩]
    rfl

theorem Binding.render_of_uniform {b : Binding} {n : Node}
    (h : ∀ remaining, Uniform (fun f => b.below f.1 remaining {} n) Paged
      fun f => b.script ⟨f.1, Stack.push {} n⟩ n) (ignored : List IgnorePattern) (maxDepth : Nat) :
    ∃ ls e, ∀ f : Format, f.Regular → (b.session { ignored } f maxDepth).render n =
      (if maxDepth = 0 then none else some (f.page ls), b.session e f maxDepth) := by
  obtain ⟨ls, e, -, hrender⟩ := b.render_of_pagedBy (Q := fun _ => True) trivial
    (fun remaining => (h remaining).mono fun _ ⟨ls, ht⟩ => ⟨ls, trivial, ht⟩) ignored maxDepth
  exact ⟨ls, e, hrender⟩

/-- A file or a document of which no string reaches over a line, but for comments, quoted text and
code, is rendered in every format as the same lines, each at its level, and uses the same names.
With carriage returns it is the text without, but for these. -/
theorem render_eq_page (n : Node) (hroot : n.kind = .file ∨ n.kind = .document)
    (hstrings : n.item.OneLine) (ignored : List IgnorePattern) (maxDepth : Nat) :
    let session (f : Format) := n.binding.session { ignored } f maxDepth
    (∃ (ls : List Line) (e : Dependencies), ∀ f : Format, f.Regular →
      (session f).render n =
        (if maxDepth = 0 then none else some (f.page ls), n.binding.session e f maxDepth))
    ∧ ∀ unit, OneLine unit →
      ((session ⟨unit, "\r\n"⟩).render n).1 =
        ((session ⟨unit, "\n"⟩).render n).1.map (Text.substitute Text.toCrlf) := by
  intro session
  have hlines : ∃ ls e, ∀ f : Format, f.Regular → (session f).render n =
      (if maxDepth = 0 then none else some (f.page ls), n.binding.session e f maxDepth) := by
    refine Binding.render_of_uniform (fun remaining => ?_) ignored maxDepth
    rcases hroot with hfile | hdocument
    · obtain ⟨x, place, rfl⟩ := Java.eq_file_of_kind hfile
      exact Java.uniform_file remaining hstrings
    · obtain ⟨x, place, rfl⟩ := Markup.eq_document_of_kind hdocument
      exact Markup.uniform_document remaining hstrings
  refine ⟨hlines, fun unit hunit => ?_⟩
  obtain ⟨ls, e, hrender⟩ := hlines
  rw [hrender _ (Format.regular_crlf hunit), hrender _ (Format.regular_lf hunit)]
  by_cases hzero : maxDepth = 0
  · simp [hzero]
  · simp [hzero, Format.page_crlf hunit]

def noted : File where
  name := "Noted.java"
  javadoc := some { text := "Two\nlines." }
  classes := [.classDecl
    { name := "Noted"
      fields := [{ name := "text", type := .ofName "String", value := some (.text "a\nb") }]
      initializers := [{ code := ["run();\r", "", "stop();\nrun();"] }] }]

theorem oneLine_noted : (Item.file noted).OneLine := by
  simp [Item.oneLine_iff_forall, Item.inside, Item.heading, noted, Item.ofTypeDecl, Item.javadoc?,
    Item.annotations?, Item.valueContents, TypeRef.ofName]
  decide

theorem render_eq_page_noted :
    let n : Node := ⟨.file noted, []⟩
    let session (f : Format) := n.binding.session { ignored := Java.ignorePatterns } f 8
    n.kind = .file ∧ n.item.OneLine
      ∧ (∃ (ls : List Line) (e : Dependencies), ∀ f : Format, f.Regular →
          (session f).render n = (some (f.page ls), n.binding.session e f 8))
      ∧ ((session ⟨"\t", "\r\n"⟩).render n).1 =
          ((session ⟨"\t", "\n"⟩).render n).1.map (Text.substitute Text.toCrlf)
      ∧ ((session ⟨"\t", "\n"⟩).render n).1 =
          some ("/**\n * Two\n * lines.\n */\n\nclass Noted \x7b\n\tString text = \"a\\nb\";\n\n"
            ++ "\t\x7b\n\t\trun();\r\n\n\t\tstop();\n\t\trun();\n\t\x7d\n\x7d\n") := by
  intro n session
  obtain ⟨hlines, hcrlf⟩ := render_eq_page n (.inl rfl) oneLine_noted Java.ignorePatterns 8
  exact ⟨rfl, oneLine_noted, hlines, hcrlf "\t" (by decide), by decide +kernel⟩

end Scribe
