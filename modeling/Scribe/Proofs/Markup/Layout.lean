import Scribe.Proofs.Layout.Passage
import Scribe.Proofs.Layout.Uniform
import Scribe.Proofs.Markup.Complete
import Scribe.Proofs.Model.Strings

/-!
The markup transforms in different formats. Where no string reaches over a line, each tag has the
same lines in every format, and so has a document.
-/
namespace Scribe.Markup

open Script
open Text (OneLine)

theorem oneLine_escape {text : String} (h : OneLine text) : OneLine (escape text) := by
  rw [OneLine, escape, Text.toList_substitute, List.mem_flatMap]
  rintro ⟨c, hc, hmem⟩
  have hne : c ≠ '\n' := by
    rintro rfl
    exact h hc
  unfold escapeChar at hmem
  split at hmem
  all_goals first
    | exact absurd hmem (by decide)
    | exact hne (List.mem_singleton.1 hmem).symm

theorem oneLine_quoted {text : String} (h : OneLine text) : OneLine (quoted text) := by
  simp only [quoted, Text.oneLine_append]
  exact ⟨⟨by decide, oneLine_escape h⟩, by decide⟩

theorem oneLine_renderDeclaration {d : MarkupDeclaration}
    (h : ∀ text ∈ (Item.declaration d).strings, OneLine text) : OneLine (renderDeclaration d) := by
  unfold renderDeclaration
  simp only [Text.oneLine_append]
  refine ⟨⟨⟨⟨by decide, oneLine_quoted (h d.version (by simp))⟩, ?encoding⟩, ?standalone⟩,
    by decide⟩
  case encoding =>
    cases hencoding : d.encoding with
    | none => decide
    | some encoding =>
      exact Text.oneLine_append.2 ⟨by decide, oneLine_quoted (h encoding (by simp [hencoding]))⟩
  case standalone =>
    cases d.standalone with
    | none => decide
    | some b => cases b <;> decide

theorem oneLine_renderAttribute {a : Attribute}
    (h : ∀ text ∈ (Item.tagAttribute a).strings, OneLine text) : OneLine (renderAttribute a) := by
  have hname : OneLine a.name := h a.name (by simp)
  unfold renderAttribute
  cases hvalue : a.value with
  | none => exact hname
  | some value =>
    simp only [Text.oneLine_append]
    exact ⟨⟨hname, by decide⟩, oneLine_quoted (h value (by simp [hvalue]))⟩

section

variable {c : RegularFormat → Children} {place : Place}

def Answered (c : RegularFormat → Children) (n : Node) : Prop :=
  ∀ m : Node, n.item.Holds m.item → Uniform c (Perhaps (Flow True)) fun _ => text? m

theorem uniform_parts {n : Node} (hc : Answered c n) {slot : Slot} {as : List α} {item : α → Item}
    (h : ∀ a ∈ as, n.item.Holds (item a)) :
    Uniform c (Each (Flow True)) fun _ => texts (n.parts slot (as.map item)) := by
  refine uniform_texts fun m hm => ?_
  obtain ⟨a, ha, place, rfl⟩ := mem_parts hm
  exact hc ⟨item a, place⟩ (h a ha)

theorem uniform_renderTag {t : Tag} (hc : Answered c ⟨.tag t, place⟩) (hname : OneLine t.name) :
    Uniform c (Flow True) fun f => renderTag f.1 ⟨.tag t, place⟩ t := by
  have hclose : OneLine ("</" ++ t.name ++ ">") := by
    simp only [Text.oneLine_append]
    exact ⟨⟨by decide, hname⟩, by decide⟩
  have hopen : OneLine ("<" ++ t.name) := Text.oneLine_append.2 ⟨by decide, hname⟩
  refine uniform_bind (uniform_parts hc (by simp +contextual)) fun attributes hattributes => ?_
  have hspaced : Each (Flow True) fun f => (attributes f).map (" " ++ ·) :=
    hattributes.map fun _ ht => ht.prepend (by decide)
  have hlist := Passage.concatenated hspaced
  have hstart : Flow True fun f => "<" ++ t.name ++ String.join ((attributes f).map (" " ++ ·)) :=
    hlist.prepend hopen
  dsimp only
  split
  · exact uniform_pure (hstart.concat (by decide))
  · next text hchildren =>
    refine uniform_bind (hc _ ?_) fun text htext => ?_
    · simp [Node.part, hchildren, Item.ofElement]
    · have hopened := (hstart.concat (c := ">") (by decide)).append (Passage.getD htext)
      exact uniform_pure (hopened.append (.line hclose))
  · have hheld : ∀ e ∈ t.children, (Item.tag t).Holds (.ofElement e) := fun e he =>
      Item.holds_iff.2 (.inr (List.mem_append_right _ (List.mem_map_of_mem he)))
    refine uniform_bind (uniform_parts hc hheld) fun children hchildren => uniform_pure ?_
    refine Passage.enclosed (hstart.concat (by decide)) (Passage.lines hchildren) (.line hclose)
      fun f => ?_
    simp

theorem uniform_renderDocument {d : Document} (hc : Answered c ⟨.document d, place⟩) :
    Uniform c (fun t => ∃ ls, t = fun f => f.1.page ls)
      fun f => renderDocument f.1 ⟨.document d, place⟩ d := by
  have hheld : ∀ e ∈ d.elements, (Item.document d).Holds (.ofElement e) := fun e he =>
    Item.holds_iff.2 (.inr (List.mem_map_of_mem he))
  refine uniform_bind (uniform_parts hc hheld) fun texts htexts => uniform_pure ?_
  obtain ⟨ls, -, hls⟩ := (Passage.lines htexts).page
  exact ⟨ls, funext hls⟩

theorem uniform_script {stack : Stack} {n : Node} (hc : Answered c n)
    (hdocument : n.kind ≠ .document) (hstrings : ∀ text ∈ n.item.strings, OneLine text) :
    Uniform c (Perhaps (Flow True)) fun f => binding.script ⟨f.1, stack.push n⟩ n := by
  obtain ⟨item, place⟩ := n
  cases item with
  | document => exact absurd rfl hdocument
  | tag t => exact uniform_some (uniform_renderTag hc (hstrings t.name (by simp)))
  | declaration d =>
    exact uniform_pure (.inr ⟨_, .line (oneLine_renderDeclaration hstrings), rfl⟩)
  | tagAttribute a =>
    exact uniform_pure (.inr ⟨_, .line (oneLine_renderAttribute hstrings), rfl⟩)
  | text t =>
    exact uniform_pure (.inr ⟨_, .line (oneLine_escape (hstrings t.value (by simp))), rfl⟩)
  | value v => cases v <;> exact uniform_none
  | _ => exact uniform_none

end

theorem ne_document_of_isPart {k : Kind} (h : k.isPart) : k ≠ .document := by
  rintro rfl
  exact absurd h (by decide)

theorem ne_document_ofElement (e : Element) : (Item.ofElement e).kind ≠ .document := by
  cases e <;> simp [Item.ofElement, Item.kind]

theorem ne_document_of_holds {i m : Item} (h : i.Holds m) : m.kind ≠ .document := by
  rcases Item.kind_of_holds h with ⟨hpart, -⟩ | ⟨himport, -⟩ | ⟨-, hmarkup⟩
  · exact ne_document_of_isPart hpart
  · simp [himport]
  rcases Item.holds_iff.1 h with hmem | hmem
  · exact ne_document_of_isPart (Item.isPart_of_mem_heading hmem)
  cases i with
  | document x =>
    obtain ⟨e, -, rfl⟩ := List.mem_map.1 hmem
    exact ne_document_ofElement e
  | tag x =>
    rcases List.mem_append.1 hmem with hmem | hmem
    · obtain ⟨a, -, rfl⟩ := List.mem_map.1 hmem
      simp [Item.kind]
    · obtain ⟨e, -, rfl⟩ := List.mem_map.1 hmem
      exact ne_document_ofElement e
  | declaration | tagAttribute | text => exact absurd hmem List.not_mem_nil
  | value v =>
    have hnone := Kind.isMarkup_of_isPart (Item.isPart_value v)
    exact absurd hmarkup (by simp [Item.kind, hnone])
  | _ => exact absurd hmarkup (by simp [Item.kind, Kind.isMarkup])

theorem uniform_first (remaining : Nat) {stack : Stack} {n : Node} (hdocument : n.kind ≠ .document)
    (h : n.item.OneLine) : Uniform (fun f => (binding.dispatcher f.1).children remaining stack)
      (Perhaps (Flow True)) fun _ => text? n := by
  induction remaining generalizing stack n with
  | zero => exact fun d hd => ⟨fun _ => none, d, .inl rfl, hd, fun _ => rfl⟩
  | succ remaining ih =>
    have hanswered : Answered (fun f => binding.below f.1 remaining stack n) n := fun m hm =>
      ih (ne_document_of_holds hm) (h.holds hm)
    intro d hd
    obtain ⟨t, e, ht, he, hrun⟩ := uniform_script hanswered hdocument h.own d hd
    refine ⟨t, e, ht, he, fun f => ?_⟩
    rw [run_text?, Binding.text_first, Binding.dependencies_first, hrun f]

theorem eq_document_of_kind {n : Node} (h : n.kind = .document) :
    ∃ x place, n = ⟨.document x, place⟩ := by
  obtain ⟨item, place⟩ := n
  cases item with
  | document x => exact ⟨x, place, rfl⟩
  | value v => cases v <;> exact nomatch h
  | _ => exact nomatch h

theorem uniform_document (remaining : Nat) {x : Document} {place : Place}
    (h : (Item.document x).OneLine) :
    Uniform (fun f => binding.below f.1 remaining {} ⟨.document x, place⟩) Paged
      fun f => binding.script ⟨f.1, Stack.push {} ⟨.document x, place⟩⟩ ⟨.document x, place⟩ := by
  have hanswered : Answered (fun f => binding.below f.1 remaining {} ⟨.document x, place⟩)
      ⟨.document x, place⟩ := fun m hm =>
    uniform_first remaining (ne_document_of_holds hm) (h.holds hm)
  refine uniform_bind (uniform_renderDocument hanswered) fun text htext => uniform_pure ?_
  obtain ⟨ls, rfl⟩ := htext
  exact ⟨ls, rfl⟩

end Scribe.Markup
