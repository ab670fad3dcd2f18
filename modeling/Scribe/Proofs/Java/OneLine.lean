import Scribe.Java.Comment
import Scribe.Java.Member
import Scribe.Java.Value
import Scribe.Proofs.Java.Chain
import Scribe.Proofs.Layout.Line
import Scribe.Proofs.Model.Strings
import Scribe.Proofs.Text.Chars

/-!
Pieces of text that are one line: names, keywords and literals, and each line of a comment.
-/
namespace Scribe

namespace Text

variable {text : String}

theorem oneLine_intercalate {sep : String} {ts : List String} (hsep : OneLine sep)
    (h : ∀ t ∈ ts, OneLine t) : OneLine (sep.intercalate ts) := by
  simp only [oneLine_iff_all] at *
  exact all_intercalate hsep h

theorem oneLine_substitute {f : Char → List Char} (h : ∀ c ∈ text.toList, '\n' ∉ f c) :
    OneLine (substitute f text) := by
  rw [OneLine, toList_substitute, List.mem_flatMap]
  rintro ⟨c, hc, hmem⟩
  exact h c hc hmem

theorem oneLine_trimEnd (h : OneLine text) : OneLine (trimEnd text) :=
  oneLine_iff_all.2 (oneLine_iff_all.1 h).trimEnd

theorem oneLine_of_mem_lines {line : String} (h : line ∈ lines text) : OneLine line :=
  oneLine_of_mem_splitOn (mem_splitOn_of_mem_lines h)

theorem oneLine_of_plain (h : Plain text) : OneLine text := by
  refine oneLine_iff_all.2 (h.mono fun c hc => ?_)
  rintro rfl
  exact absurd hc (by decide)

end Text

open Text (OneLine)

theorem Name.oneLine_short {name : String} (h : OneLine name) : OneLine (Name.short name) :=
  Text.oneLine_iff_all.2 (Name.all_short (Text.oneLine_iff_all.1 h))

theorem File.oneLine_of_package? {x : File} (h : OneLine x.name) {package : String}
    (hpackage : x.package? = some package) : OneLine package :=
  Text.oneLine_iff_all.2 (File.all_package? (Text.oneLine_iff_all.1 h) (by decide) hpackage)

namespace Java

theorem plain_integerText (i : Int64) : Plain (integerText i) := Numeral.plain_toText (by decide) _

theorem plain_binaryText {l : Layout} (x : Binary l) : Plain (binaryText x) :=
  Numeral.plain_toText (by decide) _

theorem plain_specialText {l : Layout} {wrapper : String} (h : Plain wrapper) (x : Binary l) :
    Plain (specialText wrapper x) := by
  refine Text.all_append.2 ⟨h, ?_⟩
  split
  · decide
  · split <;> decide

theorem plain_numberLiteral (x : Number) : Plain (numberLiteral x) := by
  cases x with
  | int i => exact plain_integerText i
  | long i => exact Text.all_append.2 ⟨plain_integerText i, by decide⟩
  | float x =>
    rw [numberLiteral]
    split
    · exact Text.all_append.2 ⟨plain_binaryText x, by decide⟩
    · exact plain_specialText (by decide) x
  | double x =>
    rw [numberLiteral]
    split
    · exact plain_binaryText x
    · exact plain_specialText (by decide) x

theorem plain_modifierWords (s : Stack) (ms : Modifiers) : Plain (modifierWords s ms) := by
  refine Text.all_join fun word hword => ?_
  obtain ⟨m, -, rfl⟩ := List.mem_map.1 hword
  refine Text.all_append.2 ⟨?_, by decide⟩
  cases m <;> decide

theorem oneLine_quote (text : String) : OneLine (quote text) := by
  have hescape (c : Char) : '\n' ∉ escapeChar c := by
    unfold escapeChar
    split
    all_goals first | decide | next hne _ _ => simpa using Ne.symm hne
  simp only [quote, Text.oneLine_append]
  exact ⟨⟨by decide, Text.oneLine_substitute fun c _ => hescape c⟩, by decide⟩

theorem oneLine_modifierWords (s : Stack) (ms : Modifiers) : OneLine (modifierWords s ms) :=
  Text.oneLine_of_plain (plain_modifierWords s ms)

theorem oneLine_modified (s : Stack) (ms : Modifiers) {keyword name : String}
    (hkeyword : OneLine keyword) (hname : OneLine name) :
    OneLine (modifierWords s ms ++ keyword ++ name) := by
  rw [Text.oneLine_append, Text.oneLine_append]
  exact ⟨⟨oneLine_modifierWords s ms, hkeyword⟩, hname⟩

theorem oneLine_varargsType {type : String} (h : OneLine type) : OneLine (varargsType type) := by
  unfold varargsType
  split
  · next element helement =>
    rw [Text.eq_append_of_dropEnd? helement, Text.oneLine_append] at h
    exact Text.oneLine_append.2 ⟨h.1, by decide⟩
  · exact h

theorem oneLine_typeTail (t : TypeRef) {arguments : List String}
    (h : ∀ argument ∈ arguments, OneLine argument) : OneLine (typeTail t arguments) := by
  refine Text.oneLine_append.2 ⟨?_, Text.oneLine_times (by decide) _⟩
  split
  · decide
  · simp only [Text.oneLine_append]
    exact ⟨⟨by decide, Text.oneLine_intercalate (by decide) h⟩, by decide⟩

theorem oneLine_of_mem_commentLines {text line : String} (h : line ∈ commentLines text) :
    OneLine line := by
  obtain ⟨line, hline, rfl⟩ := List.mem_map.1 h
  unfold commentLine
  dsimp only
  split
  · decide
  · have hline := Text.oneLine_trimEnd (Text.oneLine_of_mem_lines hline)
    exact Text.oneLine_append.2 ⟨by decide, hline⟩

theorem mem_strings_of_enclosing {stack : Stack} {n : Node} {name : String}
    (hname : (stack.push n).enclosing?.bind Node.name? = some name) :
    ∃ m ∈ stack.nodes, name ∈ m.item.strings := by
  obtain ⟨m, hm, hname⟩ := Option.bind_eq_some_iff.1 hname
  have hdecl : m.isTypeDecl := List.find?_some hm
  refine ⟨m, List.mem_of_find?_eq_some hm, ?_⟩
  obtain ⟨item, place⟩ := m
  cases item with
  | classDecl | interfaceDecl | enumDecl | annotationDecl =>
    exact List.mem_singleton.2 (Option.some.inj hname).symm
  | value v => cases v <;> exact nomatch hdecl
  | _ => exact nomatch hdecl

theorem oneLine_enclosing {stack : Stack} {n : Node} {name : String}
    (h : ∀ m ∈ stack.nodes, ∀ text ∈ m.item.strings, OneLine text)
    (hname : (stack.push n).enclosing?.bind Node.name? = some name) : OneLine name := by
  obtain ⟨m, hm, hmem⟩ := mem_strings_of_enclosing hname
  exact h m hm name hmem

end Java

end Scribe
