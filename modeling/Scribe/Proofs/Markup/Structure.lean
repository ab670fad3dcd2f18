import Scribe.Proofs.Markup.Complete
import Scribe.Proofs.Markup.Escape
import Scribe.Proofs.Markup.Token
import Scribe.Proofs.Model.Validity
import Scribe.Proofs.Name
import Mathlib.Data.List.Forall2

/-!
The structure of a document survives rendering: reading the text back gives the declarations and
tags of the document in their order, each tag closed after all that is inside it, whatever the texts
and the values of attributes are.
-/
namespace Scribe

open Markup (Token)

def MarkupDeclaration.attributes (d : MarkupDeclaration) : List Attribute :=
  [{ name := "version", value := some d.version }]
    ++ (d.encoding.map fun encoding => { name := "encoding", value := some encoding }).toList
    ++ (d.standalone.map fun b =>
        { name := "standalone", value := some (if b then "yes" else "no") }).toList

mutual

/-- A tag without children closes itself; another one opens before and closes after them. -/
def Tag.tokens : Tag → List Token
  | { name, attributes, children := [] } => [.single name (attributes.map (·.name))]
  | { name, attributes, children } =>
    .opening name (attributes.map (·.name)) :: elementsTokens children ++ [.closing name]

def Element.tokens : Element → List Token
  | .declaration d => [.declaration "xml" (d.attributes.map (·.name))]
  | .tag t => t.tokens
  | .text _ => []

def elementsTokens : List Element → List Token
  | [] => []
  | e :: es => e.tokens ++ elementsTokens es

end

mutual

/-- The most nodes on a way from a tag down to one of its parts, both counted. -/
def Tag.height : Tag → Nat
  | { attributes, children, .. } => 1 + max (if attributes.isEmpty then 0 else 1)
      (elementsHeight children)

def Element.height : Element → Nat
  | .declaration _ | .text _ => 1
  | .tag t => t.height

def elementsHeight : List Element → Nat
  | [] => 0
  | e :: es => max e.height (elementsHeight es)

end

namespace Document

/-- The declarations and tags of a document in the order in which they begin and end. -/
def tokens (x : Document) : List Token := elementsTokens x.elements

def height (x : Document) : Nat := 1 + elementsHeight x.elements

end Document

theorem Tag.tokens_of_ne_nil {t : Tag} (h : t.children ≠ []) :
    t.tokens = [.opening t.name (t.attributes.map (·.name))] ++ elementsTokens t.children
      ++ [.closing t.name] := by
  obtain ⟨name, attributes, children⟩ := t
  cases children with
  | nil => exact absurd rfl h
  | cons e es => rfl

theorem elementsTokens_eq (es : List Element) :
    elementsTokens es = (es.map (·.tokens)).flatten := by
  induction es with
  | nil => rfl
  | cons e es ih => rw [elementsTokens, ih, List.map_cons, List.flatten_cons]

theorem height_le_of_mem {e : Element} {es : List Element} (h : e ∈ es) :
    e.height ≤ elementsHeight es := by
  induction es with
  | nil => exact nomatch h
  | cons e' es ih =>
    rw [elementsHeight]
    rcases List.mem_cons.1 h with rfl | h
    · exact Nat.le_max_left _ _
    · exact Nat.le_trans (ih h) (Nat.le_max_right _ _)

theorem Tag.height_lt_of_child {t : Tag} {e : Element} (h : e ∈ t.children) :
    e.height < t.height := by
  obtain ⟨name, attributes, children⟩ := t
  have hle : e.height ≤ elementsHeight children := height_le_of_mem h
  rw [Tag.height]
  omega

theorem Tag.lt_height_of_attribute {t : Tag} {a : Attribute} (h : a ∈ t.attributes) :
    1 < t.height := by
  obtain ⟨name, attributes, children⟩ := t
  have hsome : attributes.isEmpty = false := List.isEmpty_eq_false_iff.2 (List.ne_nil_of_mem h)
  rw [Tag.height, hsome, if_neg Bool.false_ne_true]
  omega

theorem Element.height_pos (e : Element) : 0 < e.height := by
  cases e with
  | tag t =>
    cases t
    rw [Element.height, Tag.height]
    omega
  | _ =>
    rw [Element.height]
    exact Nat.one_pos

namespace Markup

open Script Reader

/-! Names, values and heads. -/

theorem isNameChar_of_continues {c : Char} (h : Name.continuesMarkup c) : isNameChar c := by
  have hnone : (spaces ++ marks).all (!Name.continuesMarkup ·) := by decide +kernel
  have hc : c ∉ spaces ++ marks := fun hc => by simpa [h] using List.all_eq_true.1 hnone c hc
  rw [isNameChar, Bool.not_eq_true', List.contains_eq_mem, decide_eq_false hc]

theorem isNameChar_of_isMarkup {name : String} (h : Name.isMarkup name) :
    ∀ c ∈ name.toList, isNameChar c := fun _ hc =>
  isNameChar_of_continues (Name.continues_of_isMarkup h hc)

theorem toList_ne_nil_of_isMarkup {name : String} (h : Name.isMarkup name) : name.toList ≠ [] :=
  fun hnil => Name.isMarkup_ne_empty h (String.toList_eq_nil_iff.1 hnil)

theorem reads_escape (text : String) : Reads .content (escape text).toList [] .content :=
  .of_forall trivial fun _ hc => by simp [step, ne_of_mem_escape hc]

theorem reads_quoted (h : Head) (text : String) :
    Reads (.equals h) (quoted text).toList [] (.valued h) := by
  have hvalue : Reads (.value h) (escape text).toList [] (.value h) :=
    .of_forall trivial fun _ hc => by simp [step, ne_of_mem_escape hc]
  have hopen : Reads (.equals h) ['"'] [] (.value h) := .char (by simp [step]) (by decide)
  have hclose : Reads (.value h) ['"'] [] (.valued h) := .char (by simp [step]) (by decide)
  rw [quoted, String.toList_append, String.toList_append]
  exact (hopen.append hvalue).append hclose

theorem reads_renderAttribute {s : Reader} {h : Head} (hs : s.head? = some h) (hname : h.name ≠ "")
    {a : Attribute} (ha : Name.isMarkup a.name) :
    ∃ s', s'.head? = some (h.add a.name)
      ∧ Reads s (" " ++ renderAttribute a).toList [] s' := by
  have hkey : Reads (.gap h) a.name.toList [] (.key h a.name.toList) :=
    .wholeName (fun c hc => by simp [step, hc]) (fun read c hc => by simp [step, hc])
      (isNameChar_of_isMarkup ha) (toList_ne_nil_of_isMarkup ha)
  have hend : (Reader.key h a.name.toList).head? = some (h.add a.name) := by
    rw [head?, String.ofList_toList]
  rw [String.toList_append]
  unfold renderAttribute
  cases a.value with
  | none => exact ⟨_, hend, (Reads.gap hs hname).append hkey⟩
  | some value =>
    have hequals : Reads (.key h a.name.toList) ['='] [] (.equals (h.add a.name)) := by
      have hsign : isNameChar '=' = false := by decide
      exact .char (by simp [step, hsign]) (by decide)
    refine ⟨.valued (h.add a.name), rfl, (Reads.gap hs hname).append ?_⟩
    rw [String.toList_append, String.toList_append]
    exact (hkey.append hequals).append (reads_quoted _ value)

theorem reads_attributes {s : Reader} {h : Head} (hs : s.head? = some h) (hname : h.name ≠ "")
    {attributes : List Attribute} (ha : ∀ a ∈ attributes, Name.isMarkup a.name) :
    ∃ s', s'.head? = some { h with attributes := h.attributes ++ attributes.map (·.name) }
      ∧ Reads s (String.join (attributes.map (" " ++ renderAttribute ·))).toList [] s' := by
  induction attributes generalizing s h with
  | nil =>
    refine ⟨s, by simpa using hs, ?_⟩
    rw [List.map_nil, String.join_nil]
    exact .nil s
  | cons a attributes ih =>
    obtain ⟨ha, hrest⟩ := List.forall_mem_cons.1 ha
    obtain ⟨s₁, hs₁, hfirst⟩ := reads_renderAttribute hs hname ha
    obtain ⟨s₂, hs₂, hothers⟩ := ih hs₁ hname hrest
    refine ⟨s₂, by simpa [Head.add] using hs₂, ?_⟩
    rw [List.map_cons, String.join_cons, String.toList_append]
    exact hfirst.append hothers

theorem reads_head {name : String} (hname : Name.isMarkup name) {attributes : List Attribute}
    (ha : ∀ a ∈ attributes, Name.isMarkup a.name) :
    ∃ s, s.head? = some ⟨false, name, attributes.map (·.name)⟩
      ∧ Reads .content
          ("<" ++ name ++ String.join (attributes.map (" " ++ renderAttribute ·))).toList [] s := by
  have hbegun : Reads .content ['<'] [] .begun := .char (by simp [step]) (by decide)
  have hstarts (c : Char) (hc : isNameChar c) :
      Reader.begun.step c = some (.name false [c], []) := by
    have hslash : c ≠ '/' := ne_of_isNameChar hc (by decide)
    have hquestion : c ≠ '?' := ne_of_isNameChar hc (by decide)
    simp [step, hc, hslash, hquestion]
  have hread : Reads .begun name.toList [] (.name false name.toList) :=
    .wholeName hstarts (fun read c hc => by simp [step, hc]) (isNameChar_of_isMarkup hname)
      (toList_ne_nil_of_isMarkup hname)
  have hhead : (Reader.name false name.toList).head? = some ⟨false, name, []⟩ := by
    rw [head?, String.ofList_toList]
  obtain ⟨s, hs, hattributes⟩ := reads_attributes hhead (Name.isMarkup_ne_empty hname) ha
  refine ⟨s, hs, ?_⟩
  rw [String.toList_append, String.toList_append]
  exact (hbegun.append hread).append hattributes

theorem reads_close {name : String} (hname : Name.isMarkup name) :
    Reads .content ("</" ++ name ++ ">").toList [.closing name] .content := by
  have hless : Reads .content ['<'] [] .begun := .char (by simp [step]) (by decide)
  have hbegun : Reads .content ['<', '/'] [] (.closing []) :=
    hless.append (.char (by simp [step]) (by decide))
  have hread : Reads (.closing []) name.toList [] (.closing name.toList) :=
    .name (k := .closing) (fun read c hc => by simp [step, hc]) (isNameChar_of_isMarkup hname) []
  have hend : Reads (.closing name.toList) ['>'] [.closing name] .content := by
    have hmark : isNameChar '>' = false := by decide
    exact .char (by simp [step, hmark, toList_ne_nil_of_isMarkup hname]) (by decide)
  rw [String.toList_append, String.toList_append]
  exact (hbegun.append hread).append hend

theorem renderDeclaration_eq (d : MarkupDeclaration) : renderDeclaration d =
    "<?xml" ++ String.join (d.attributes.map (" " ++ renderAttribute ·)) ++ "?>" := by
  unfold renderDeclaration MarkupDeclaration.attributes renderAttribute
  cases d.encoding <;> cases d.standalone <;> simp [String.join_cons, ← String.append_assoc]

theorem isMarkup_of_mem_attributes {d : MarkupDeclaration} {a : Attribute} (h : a ∈ d.attributes) :
    Name.isMarkup a.name := by
  unfold MarkupDeclaration.attributes at h
  simp only [List.mem_append, List.mem_singleton, Option.mem_toList, Option.map_eq_some_iff] at h
  rcases h with (rfl | ⟨_, -, rfl⟩) | ⟨_, -, rfl⟩
  · exact (by decide +kernel : Name.isMarkup "version")
  · exact (by decide +kernel : Name.isMarkup "encoding")
  · exact (by decide +kernel : Name.isMarkup "standalone")

theorem reads_renderDeclaration (d : MarkupDeclaration) :
    Reads .content (renderDeclaration d).toList
      [.declaration "xml" (d.attributes.map (·.name))] .content := by
  have hless : Reads .content ['<'] [] .begun := .char (by simp [step]) (by decide)
  have hbegun : Reads .content ['<', '?'] [] (.name true []) :=
    hless.append (.char (by simp [step]) (by decide))
  have hchars : ['x', 'm', 'l'].all isNameChar := by decide
  have hread : Reads .content "<?xml".toList [] (.name true ['x', 'm', 'l']) :=
    hbegun.append (.name (k := .name true) (fun read c hc => by simp [step, hc])
      (List.all_eq_true.1 hchars) [])
  have hhead : (Reader.name true ['x', 'm', 'l']).head? = some ⟨true, "xml", []⟩ := rfl
  have hname : "xml" ≠ "" := by decide
  obtain ⟨s, hs, hattributes⟩ := reads_attributes hhead hname fun a (ha : a ∈ d.attributes) =>
    isMarkup_of_mem_attributes ha
  rw [renderDeclaration_eq, String.toList_append, String.toList_append]
  exact (hread.append hattributes).append (.declares hs hname rfl)

/-! Lines. -/

variable {f : Format}

/-- A format in which nothing but blanks and ends of lines is added to a text. -/
structure Blank (f : Format) : Prop where
  unit : Text.allBlank f.indentUnit
  terminator : f.lineTerminator = "\n" ∨ f.lineTerminator = "\r\n"

def ReadsAs (text : String) (ts : List Token) : Prop := Reads .content text.toList ts .content

theorem Blank.readsAs_lineTerminator (hf : Blank f) : ReadsAs f.lineTerminator [] := by
  have hless : '<' ∉ f.lineTerminator.toList := by
    rcases hf.terminator with h | h <;> rw [h] <;> decide
  refine .of_forall trivial fun c hc => ?_
  have hne : c ≠ '<' := fun heq => hless (heq ▸ hc)
  simp [step, hne]

theorem Blank.readsAs_indent (hf : Blank f) {text : String} {ts : List Token}
    (h : ReadsAs text ts) : ReadsAs (f.indent text) ts :=
  Reads.indent (s := .content) (Text.endsLine_of_eq hf.terminator) hf.unit trivial h

theorem ReadsAs.append {a b : String} {ts ts' : List Token} (h : ReadsAs a ts)
    (h' : ReadsAs b ts') : ReadsAs (a ++ b) (ts ++ ts') := by
  unfold ReadsAs
  rw [String.toList_append]
  exact Reads.append h h'

section

variable {P : String → List β → Prop} (hempty : ∀ bs, P "" bs ↔ bs = [])
  (happend : ∀ {a as b bs}, P a as → P b bs → P (a ++ f.lineTerminator ++ b) (as ++ bs))

include hempty happend

theorem intercalate_of_forall₂ {texts : List String} {bss : List (List β)}
    (h : List.Forall₂ P texts bss) : P (f.lineTerminator.intercalate texts) bss.flatten := by
  induction h with
  | nil => exact (hempty []).2 rfl
  | @cons text bs texts bss first rest ih =>
    cases rest with
    | nil =>
      rw [String.intercalate_singleton, List.flatten_singleton]
      exact first
    | cons =>
      rw [String.intercalate_cons_cons, List.flatten_cons]
      exact happend first ih

/-- What holds of texts and lists one by one holds of the lines that the texts make and the lists in
a row: a text that is left out has nothing in its list. -/
theorem lines_of_forall₂ {texts : List String} {bss : List (List β)}
    (h : List.Forall₂ P texts bss) : P (f.lines texts) bss.flatten := by
  have hkept : ∃ bss', List.Forall₂ P (texts.filter (· != "")) bss'
      ∧ bss'.flatten = bss.flatten := by
    induction h with
    | nil => exact ⟨[], .nil, rfl⟩
    | @cons text bs texts bss first rest ih =>
      obtain ⟨bss', hrest, heq⟩ := ih
      by_cases htext : text = ""
      · have hnone : bs = [] := (hempty bs).1 (htext ▸ first)
        exact ⟨bss', by simpa [htext] using hrest, by simpa [hnone] using heq⟩
      · exact ⟨bs :: bss', by simpa [htext] using List.Forall₂.cons first hrest, by simp [heq]⟩
  obtain ⟨bss', hkept, heq⟩ := hkept
  rw [← heq]
  exact intercalate_of_forall₂ hempty happend hkept

end

theorem readsAs_empty_iff (ts : List Token) : ReadsAs "" ts ↔ ts = [] := by
  refine ⟨fun h => ?_, fun h => h ▸ .nil _⟩
  cases h
  rfl

theorem Blank.readsAs_lines (hf : Blank f) {texts : List String} {tss : List (List Token)}
    (h : List.Forall₂ ReadsAs texts tss) : ReadsAs (f.lines texts) tss.flatten := by
  refine lines_of_forall₂ readsAs_empty_iff (fun {a as b bs} ha hb => ?_) h
  have hline := ha.append hf.readsAs_lineTerminator
  rw [List.append_nil] at hline
  exact hline.append hb

/-! Transforms. -/

theorem forall₂_texts {c : Children} {as : List α} {item : α → Item} {P : String → α → Prop}
    (h : ∀ a ∈ as, ∀ place d, ∃ text,
      (c.first ⟨item a, place⟩ d).1.map (·.text) = some text ∧ P text a)
    (n : Node) (slot : Slot) (d : Dependencies) :
    List.Forall₂ P ((texts (n.parts slot (as.map item))).run c d).1 as := by
  have hplaces (place : Nat → Place) :
      List.Forall₂ P
        ((texts ((as.map item).mapIdx fun i item => ⟨item, place i⟩)).run c d).1 as := by
    induction as generalizing place d with
    | nil => exact .nil
    | cons a as ih =>
      obtain ⟨ha, has⟩ := List.forall_mem_cons.1 h
      rw [List.map_cons, List.mapIdx_cons, texts_cons, run_monadBind, run_text?]
      obtain ⟨text, htext, hP⟩ := ha (place 0) d
      rw [htext, run_monadBind]
      exact .cons hP (ih has _ fun i => place (i + 1))
  exact hplaces fun i => (slot, i) :: n.place

section

variable {c : Children} {place : Place}

def ReadBack (c : Children) (es : List Element) : Prop :=
  ∀ e ∈ es, ∀ place d, ∃ text,
    (c.first ⟨.ofElement e, place⟩ d).1.map (·.text) = some text ∧ ReadsAs text e.tokens

theorem Blank.readsAs_elements (hf : Blank f) {es : List Element} (h : ReadBack c es) (n : Node)
    (slot : Slot) (d : Dependencies) :
    ReadsAs (f.lines ((texts (n.parts slot (es.map .ofElement))).run c d).1)
      (elementsTokens es) := by
  rw [elementsTokens_eq]
  exact hf.readsAs_lines (List.forall₂_map_right_iff.2 (forall₂_texts h n slot d))

theorem run_attributes {attributes : List Attribute} (h : ∀ a ∈ attributes, ∀ place d,
      (c.first ⟨.tagAttribute a, place⟩ d).1.map (·.text) = some (renderAttribute a))
    (n : Node) (slot : Slot) (d : Dependencies) :
    ((texts (n.parts slot (attributes.map .tagAttribute))).run c d).1 =
      attributes.map renderAttribute := by
  have htexts := forall₂_texts (P := fun text a => text = renderAttribute a)
    (fun a ha place d => ⟨_, h a ha place d, rfl⟩) n slot d
  rwa [← List.forall₂_eq_eq_eq, List.forall₂_map_right_iff]

theorem readsAs_renderTag (hf : Blank f) {t : Tag} (hvalid : t.validate = .ok ())
    (hattributes : ∀ a ∈ t.attributes, ∀ place d,
      (c.first ⟨.tagAttribute a, place⟩ d).1.map (·.text) = some (renderAttribute a))
    (hchildren : ReadBack c t.children) (d : Dependencies) :
    ReadsAs ((renderTag f ⟨.tag t, place⟩ t).run c d).1 t.tokens := by
  obtain ⟨name, attributes, children⟩ := t
  obtain ⟨hname, hnames, -⟩ := Tag.validate_iff.1 hvalid
  obtain ⟨s, hs, hhead⟩ := reads_head hname hnames
  have hne : name ≠ "" := Name.isMarkup_ne_empty hname
  have hopen : ReadsAs
      ("<" ++ name ++ String.join (attributes.map (" " ++ renderAttribute ·)) ++ ">")
      [.opening name (attributes.map (·.name))] := by
    unfold ReadsAs
    rw [String.toList_append]
    exact hhead.append (.opens hs hne rfl)
  have hclose : ReadsAs ("</" ++ name ++ ">") [.closing name] := reads_close hname
  unfold renderTag
  rw [run_monadBind, run_attributes hattributes, List.map_map]
  generalize (Script.run c (texts _) d).2 = d'
  dsimp only [Function.comp_def]
  split
  · rw [run_pure, ReadsAs, String.toList_append]
    exact hhead.append (.closesItself hs hne rfl)
  · next text =>
    obtain ⟨inner, hinner, hreads⟩ := hchildren (.text text) List.mem_cons_self
      ((.children, 0) :: place) d'
    rw [run_monadBind, run_text?]
    change ReadsAs (_ ++ (Option.map _ (c.first ⟨.ofElement (.text text), _⟩ d').1).getD "" ++ _) _
    rw [hinner]
    exact (hopen.append hreads).append hclose
  · next hsome _ =>
    have hinner := hf.readsAs_indent
      (hf.readsAs_elements hchildren ⟨.tag ⟨name, attributes, children⟩, place⟩ .children d')
    have hlines := hf.readsAs_lines (.cons hopen (.cons hinner (.cons hclose .nil)))
    rw [run_monadBind, Tag.tokens_of_ne_nil hsome]
    simpa using hlines

/-! Documents. -/

theorem readsAs_renderDocument (hf : Blank f) {x : Document} (h : ReadBack c x.elements)
    (d : Dependencies) :
    ReadsAs ((renderDocument f ⟨.document x, place⟩ x).run c d).1 x.tokens := by
  have helements := hf.readsAs_elements h ⟨.document x, place⟩ .elements d
  unfold renderDocument
  rw [run_monadBind, run_pure]
  dsimp only
  split
  · exact helements
  · have hpage := helements.append hf.readsAs_lineTerminator
    rwa [List.append_nil] at hpage

end

theorem text_tag (remaining : Nat) (stack : Stack) (t : Tag) (place : Place) (d : Dependencies) :
    (((binding.dispatcher f).children (remaining + 1) stack).first ⟨.tag t, place⟩ d).1.map
      (·.text) =
      some ((renderTag f ⟨.tag t, place⟩ t).run
        (binding.below f remaining stack ⟨.tag t, place⟩) d).1 := by
  have hscript : binding.script ⟨f, stack.push ⟨.tag t, place⟩⟩ ⟨.tag t, place⟩ =
      some <$> renderTag f ⟨.tag t, place⟩ t := rfl
  rw [Binding.text_first, hscript, map_eq_pure_bind, run_monadBind]
  rfl

def Gives (c : Children) (P : String → Element → Prop) (es : List Element) : Prop :=
  ∀ e ∈ es, ∀ place d, ∃ text,
    (c.first ⟨.ofElement e, place⟩ d).1.map (·.text) = some text ∧ P text e

/-- A property that declarations and texts have, and tags with it inside them, holds of every
element that the depth allows with all in it. -/
theorem gives_element {P : String → Element → Prop}
    (hdeclaration : ∀ x, P (renderDeclaration x) (.declaration x))
    (htext : ∀ x, P (escape x.value) (.text x))
    (htag : ∀ {c : Children} {t : Tag} (place : Place) (d : Dependencies), t.validate = .ok () →
      (∀ a ∈ t.attributes, ∀ place d,
        (c.first ⟨.tagAttribute a, place⟩ d).1.map (·.text) = some (renderAttribute a)) →
      Gives c P t.children → P ((renderTag f ⟨.tag t, place⟩ t).run c d).1 (.tag t))
    (remaining : Nat) {stack : Stack} {e : Element} (hvalid : e.validate = .ok ())
    (hheight : e.height ≤ remaining) (place : Place) (d : Dependencies) :
    ∃ text, (((binding.dispatcher f).children remaining stack).first ⟨.ofElement e, place⟩ d).1.map
      (·.text) = some text ∧ P text e := by
  induction remaining generalizing stack e place d with
  | zero => exact absurd hheight (Nat.not_le_of_lt e.height_pos)
  | succ remaining ih =>
    cases e with
    | declaration x =>
      rw [Binding.text_first]
      exact ⟨_, rfl, hdeclaration x⟩
    | text x =>
      rw [Binding.text_first]
      exact ⟨_, rfl, htext x⟩
    | tag t =>
      refine ⟨_, text_tag remaining stack t place d, htag place d hvalid
        (fun a ha place d => ?_) (fun e he place d => ?_)⟩
      · have hlow := t.lt_height_of_attribute ha
        obtain ⟨below, rfl⟩ : ∃ below, remaining = below + 1 := ⟨remaining - 1, by
          rw [Element.height] at hheight
          omega⟩
        rw [Binding.text_first]
        rfl
      · have hlow := t.height_lt_of_child he
        rw [Element.height] at hheight
        exact ih ((Tag.validate_iff.1 hvalid).2.2 e he) (by omega) place d

theorem readsAs_element (hf : Blank f) (remaining : Nat) {stack : Stack} {e : Element}
    (hvalid : e.validate = .ok ()) (hheight : e.height ≤ remaining) (place : Place)
    (d : Dependencies) :
    ∃ text, (((binding.dispatcher f).children remaining stack).first ⟨.ofElement e, place⟩ d).1.map
      (·.text) = some text ∧ ReadsAs text e.tokens :=
  gives_element (P := fun text e => ReadsAs text e.tokens) reads_renderDeclaration
    (fun x => reads_escape x.value)
    (fun _ d hvalid hattributes hchildren => readsAs_renderTag hf hvalid hattributes hchildren d)
    remaining hvalid hheight place d

/-- A document that is valid is rendered, within a depth that is no lower than its height, to a text
that is read as the document: its declarations and tags in their order with the names of their
attributes, and each tag closed in its place. -/
theorem tokenize_render {x : Document} (hvalid : x.validate = .ok ()) (hf : Blank f)
    (place : Place) (d : Dependencies) {maxDepth : Nat} (hheight : x.height ≤ maxDepth) :
    ∃ text, ((binding.session d f maxDepth).render ⟨.document x, place⟩).1 = some text
      ∧ tokenize text = some x.tokens := by
  unfold Document.height at hheight
  obtain ⟨remaining, rfl⟩ : ∃ remaining, maxDepth = remaining + 1 := ⟨maxDepth - 1, by omega⟩
  have hscript : binding.script ⟨f, Stack.push {} ⟨.document x, place⟩⟩ ⟨.document x, place⟩ =
      some <$> renderDocument f ⟨.document x, place⟩ x := rfl
  rw [binding.render_session, Binding.text_first, hscript, map_eq_pure_bind, run_monadBind]
  refine ⟨_, rfl, ?_⟩
  have hreads : ReadsAs ((renderDocument f ⟨.document x, place⟩ x).run
      (binding.below f remaining {} ⟨.document x, place⟩) d).1 x.tokens :=
    readsAs_renderDocument hf (fun e he place d => by
      have hle := height_le_of_mem he
      exact readsAs_element hf remaining (Document.validate_iff.1 hvalid e he) (by omega) place d) d
  rw [tokenize, hreads.run_eq]

def disguised : Document where
  elements := [
    .declaration .xml,
    .tag
      { name := "list"
        attributes := [{ name := "kind", value := some "\"/>\n<b>" }, { name := "open" }]
        children := [
          .tag { name := "item" },
          .tag { name := "item", children := [.text { value := "1 < 2\n</list>" }] }] }]

theorem tokenize_render_disguised :
    disguised.validate = .ok () ∧ Blank ⟨"\t", "\r\n"⟩ ∧ disguised.height ≤ 4
      ∧ ∃ text,
        ((binding.session {} ⟨"\t", "\r\n"⟩ 4).render ⟨.document disguised, []⟩).1 = some text
          ∧ tokenize text = some [.declaration "xml" ["version", "encoding"],
            .opening "list" ["kind", "open"], .single "item" [], .opening "item" [],
            .closing "item", .closing "list"] := by
  have hvalid : disguised.validate = .ok () := by decide +kernel
  have hblank : Blank ⟨"\t", "\r\n"⟩ := ⟨by decide, .inr rfl⟩
  have hheight : disguised.height ≤ 4 := by decide +kernel
  exact ⟨hvalid, hblank, hheight, tokenize_render hvalid hblank [] {} hheight⟩

end Markup

end Scribe
