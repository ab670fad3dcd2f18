import Scribe.Proofs.Markup.Escape
import Scribe.Proofs.Markup.Indented

/-!
What becomes of the values in a document. Each is escaped once, which loses nothing; but it also
stands within the lines of all tags around it, and is indented with them. So a value of several
lines comes back as it was only from a tag that stands in no other one.
-/
namespace Scribe

open Markup (Mark)

mutual

/-- A tag and those inside it in the order in which they begin, each with how many it stands in. -/
def Tag.tags (depth : Nat) : Tag → List (Nat × Tag)
  | { name, attributes, children } =>
    (depth, { name, attributes, children }) :: elementsTags (depth + 1) children

def Element.tags (depth : Nat) : Element → List (Nat × Tag)
  | .declaration _ | .text _ => []
  | .tag t => t.tags depth

def elementsTags (depth : Nat) : List Element → List (Nat × Tag)
  | [] => []
  | e :: es => e.tags depth ++ elementsTags depth es

end

def Document.tags (x : Document) : List (Nat × Tag) := elementsTags 0 x.elements

namespace Tag

def values (t : Tag) : List String := t.attributes.filterMap (·.value)

/-- How the tag begins, without the values of its attributes. -/
def outline (t : Tag) : String :=
  "<" ++ t.name ++ String.join (t.attributes.map (" " ++ ·.outline))
    ++ (if t.children.isEmpty then "/>" else ">")

end Tag

/-- A tag at some depth is shown by a mark: its attributes by name and with their values, and if a
text is all that it holds, the next mark closes it after this text. -/
structure Shown (x : Nat × Tag) (found : Mark × Option Mark) : Prop where
  outline : found.1.outline = x.2.outline
  values : found.1.values.map Markup.unescape = x.2.values.map (indented x.1)
  text : ∀ text, x.2.children = [.text text] → ∃ close, found.2 = some close
    ∧ close.outline = "</" ++ x.2.name ++ ">"
    ∧ Markup.unescape close.before = indented x.1 text.value

theorem elementsTags_eq (depth : Nat) (es : List Element) :
    elementsTags depth es = (es.map (·.tags depth)).flatten := by
  induction es with
  | nil => rfl
  | cons e es ih => rw [elementsTags, ih, List.map_cons, List.flatten_cons]

namespace Markup

open Script
open Text (inset)

/-! Marks in a row. -/

theorem shown_of_next {x : Nat × Tag} {m : Mark} {next more : Option Mark} (h : Shown x (m, next)) :
    Shown x (m, next.or more) where
  outline := h.outline
  values := h.values
  text text htext := by
    obtain ⟨close, hnext, hclose⟩ := h.text text htext
    refine ⟨close, ?_, hclose⟩
    rw [show next = some close from hnext, Option.some_or]

theorem forall₂_startTags_append {xs ys : List (Nat × Tag)} {ms ms' : List Mark}
    (h : List.Forall₂ Shown xs (startTags ms)) (h' : List.Forall₂ Shown ys (startTags ms')) :
    List.Forall₂ Shown (xs ++ ys) (startTags (ms ++ ms')) := by
  induction ms generalizing xs with
  | nil =>
    cases h
    exact h'
  | cons m ms ih =>
    rw [startTags] at h
    rw [List.cons_append, startTags]
    cases hstarts : m.starts with
    | false =>
      simp only [hstarts, Bool.false_eq_true, ↓reduceIte] at h ⊢
      exact ih h
    | true =>
      simp only [hstarts, ↓reduceIte] at h ⊢
      cases h with
      | cons first rest =>
        rw [List.head?_append]
        exact .cons (shown_of_next first) (ih rest)

/-- Indented as it is at some depth, a text shows these tags in their order and no others. -/
def Shows (depth : Nat) (text : String) (xs : List (Nat × Tag)) : Prop :=
  ∀ before, ∃ after ms,
    (Scanner.content before).run (inset (margin depth) true text.toList) = (.content after, ms)
      ∧ List.Forall₂ Shown xs (startTags ms)

variable {depth : Nat} {text : String} {xs ys : List (Nat × Tag)}

theorem shows_empty_iff (xs : List (Nat × Tag)) : Shows depth "" xs ↔ xs = [] := by
  constructor
  · intro h
    obtain ⟨after, ms, hrun, hshown⟩ := h []
    obtain rfl : [] = ms := congrArg Prod.snd hrun
    exact List.forall₂_nil_right_iff.1 hshown
  · rintro rfl before
    exact ⟨before, [], rfl, .nil⟩

theorem Shows.append {a b : String} (h : Shows depth a xs) (h' : Shows depth b ys) :
    Shows depth (a ++ Format.standard.lineTerminator ++ b) (xs ++ ys) := by
  intro before
  obtain ⟨between, ms, hrun, hshown⟩ := h before
  obtain ⟨after, ms', hrun', hshown'⟩ := h' (between ++ ['\n'])
  have hnewline : Format.standard.lineTerminator.toList = ['\n'] := rfl
  have hline : (Scanner.content between).run ['\n'] = (.content (between ++ ['\n']), []) :=
    Scanner.run_content (by decide) between
  refine ⟨after, ms ++ ms', ?_, forall₂_startTags_append hshown hshown'⟩
  rw [String.toList_append, String.toList_append, hnewline, List.append_assoc,
    List.singleton_append, Text.inset_newline]
  exact Scanner.run_append hrun (Scanner.run_append hline hrun')

theorem shows_lines {texts : List String} {xss : List (List (Nat × Tag))}
    (h : List.Forall₂ (Shows depth) texts xss) :
    Shows depth (Format.standard.lines texts) xss.flatten :=
  lines_of_forall₂ shows_empty_iff Shows.append h

theorem Shows.indent (h : Shows (depth + 1) text xs) :
    Shows depth (Format.standard.indent text) xs := by
  have hunit : '\n' ∉ Format.standard.indentUnit.toList := by decide
  intro before
  rw [Format.toList_indent rfl, Text.inset_inset hunit, ← margin_succ]
  exact h before

/-! Elements. -/

theorem shows_escape (depth : Nat) (value : String) : Shows depth (escape value) [] := by
  intro before
  have hless : '<' ∉ inset (margin depth) true (escape value).toList := fun hmem => by
    rcases Text.mem_inset hmem with h | h
    · exact absurd (eq_of_mem_margin h) (by decide)
    · exact (ne_of_mem_escape h).1 rfl
  exact ⟨_, [], Scanner.run_content hless before, .nil⟩

section

variable {name ending : String} {attributes : List Attribute}

theorem starts_outlineText {c : Char} {cs : List Char} (h : name.toList = c :: cs)
    (before : String) (values : List String) :
    Mark.starts ⟨before, outlineText name attributes ending, values⟩ = (c != '/' && c != '?') := by
  have hless : "<".toList = ['<'] := rfl
  simp [Mark.starts, outlineText, h, hless]

theorem shows_markText {c : Char} {cs : List Char} (hname : name.toList = c :: cs)
    (hbare : Bare name.toList) (hstarts : c = '/' ∨ c = '?')
    (h : ∀ a ∈ attributes, Name.isMarkup a.name) (hending : Ends ending) (depth : Nat) :
    Shows depth (markText name attributes ending) [] := by
  intro before
  refine ⟨[], _, run_inset_markText hbare h hending before, ?_⟩
  have hnone : (c != '/' && c != '?') = false := by
    rcases hstarts with rfl | rfl <;> rfl
  rw [startTags, starts_outlineText hname, hnone]
  exact .nil

end

theorem shows_renderDeclaration (depth : Nat) (d : MarkupDeclaration) :
    Shows depth (renderDeclaration d) [] := by
  have htext : renderDeclaration d = markText "?xml" d.attributes "?>" := renderDeclaration_eq d
  rw [htext]
  exact shows_markText rfl (by decide) (.inr rfl) (fun a ha => isMarkup_of_mem_attributes ha)
    ⟨['?'], by decide, rfl⟩ depth

theorem ends_close : Ends ">" := ⟨[], ⟨nofun, nofun, nofun⟩, rfl⟩

theorem toList_closing (name : String) : ("/" ++ name).toList = '/' :: name.toList := by
  rw [String.toList_append]
  rfl

theorem bare_closing {name : String} (h : Name.isMarkup name) : Bare ("/" ++ name).toList := by
  obtain ⟨hnewline, hquote, hend⟩ := bare_of_isMarkup h
  rw [Bare, toList_closing]
  simp [hnewline, hquote, hend]

theorem shows_closing {name : String} (h : Name.isMarkup name) (depth : Nat) :
    Shows depth ("</" ++ name ++ ">") [] := by
  have hnone : ∀ a ∈ ([] : List Attribute), Name.isMarkup a.name := nofun
  rw [← markText_closing]
  exact shows_markText (toList_closing name) (bare_closing h) (.inl rfl) hnone ends_close depth

/-! Tags. -/

section

variable {t : Tag} {ending : String}

theorem outline_eq (hending : ending = if t.children.isEmpty then "/>" else ">") :
    outlineText t.name t.attributes ending = t.outline := by
  rw [hending]
  rfl

theorem startTags_cons (hname : Name.isMarkup t.name) (before : String) (values : List String)
    (ms : List Mark) :
    startTags (⟨before, outlineText t.name t.attributes ending, values⟩ :: ms) =
      (⟨before, outlineText t.name t.attributes ending, values⟩, ms.head?) :: startTags ms := by
  obtain ⟨c, cs, hcs⟩ := List.exists_cons_of_ne_nil (toList_ne_nil_of_isMarkup hname)
  have hc : isNameChar c := isNameChar_of_isMarkup hname c (hcs ▸ List.mem_cons_self)
  have hslash : c ≠ '/' := Reader.ne_of_isNameChar hc (by decide)
  have hquestion : c ≠ '?' := Reader.ne_of_isNameChar hc (by decide)
  rw [startTags, starts_outlineText hcs]
  simp [hslash, hquestion]

theorem unescape_values (depth : Nat) :
    ((t.attributes.filterMap (·.value)).map (escape ∘ indented depth)).map unescape =
      t.values.map (indented depth) := by
  rw [List.map_map]
  exact List.map_congr_left fun value _ => unescape_escape _

/-- The mark with which a tag begins, unless a text is all that the tag holds. -/
theorem shows_start (hname : Name.isMarkup t.name)
    (hattributes : ∀ a ∈ t.attributes, Name.isMarkup a.name)
    (hending : ending = if t.children.isEmpty then "/>" else ">")
    (hchildren : ∀ x, t.children ≠ [.text x]) (depth : Nat) :
    Shows depth (markText t.name t.attributes ending) [(depth, t)] := by
  have hends : Ends ending := by
    rw [hending]
    split
    · exact ⟨['/'], by decide, rfl⟩
    · exact ends_close
  intro before
  refine ⟨[], _, run_inset_markText (bare_of_isMarkup hname) hattributes hends before, ?_⟩
  rw [startTags_cons hname]
  exact .cons ⟨outline_eq hending, unescape_values depth, fun x hx => absurd hx (hchildren x)⟩ .nil

theorem shows_enclosed (hname : Name.isMarkup t.name)
    (hattributes : ∀ a ∈ t.attributes, Name.isMarkup a.name) {x : CharacterData}
    (hchildren : t.children = [.text x]) (depth : Nat) :
    Shows depth
      (markText t.name t.attributes ">" ++ escape x.value ++ ("</" ++ t.name ++ ">"))
      [(depth, t)] := by
  have hending : ">" = if t.children.isEmpty then "/>" else ">" := by
    rw [hchildren]
    rfl
  have hclosing : (outlineText ("/" ++ t.name) [] ">") = "</" ++ t.name ++ ">" := by
    rw [← markText_closing]
    rfl
  rw [← markText_closing]
  intro before
  refine ⟨[], _, run_inset_enclosed (bare_of_isMarkup hname) hattributes ends_close
    (bare_closing hname) x.value before, ?_⟩
  rw [startTags_cons hname, startTags, starts_outlineText (toList_closing t.name)]
  refine .cons ⟨outline_eq hending, unescape_values depth, fun text htext => ?_⟩ .nil
  rw [hchildren, List.cons.injEq, Element.text.injEq] at htext
  exact ⟨_, rfl, hclosing, by rw [unescape_escape, htext.1]⟩

end

/-- What is written for an element shows the tags in it at any depth; a text is only escaped. -/
structure Displays (text : String) (e : Element) : Prop where
  shows : ∀ depth, Shows depth text (e.tags depth)
  escaped : ∀ x, e = .text x → text = escape x.value

section

variable {c : Children} {place : Place}

theorem shows_elements {es : List Element} (h : Gives c Displays es) (n : Node) (slot : Slot)
    (d : Dependencies) (depth : Nat) :
    Shows depth (Format.standard.lines ((texts (n.parts slot (es.map .ofElement))).run c d).1)
      (elementsTags depth es) := by
  rw [elementsTags_eq]
  refine shows_lines (List.forall₂_map_right_iff.2 (forall₂_texts (fun e he place d => ?_) n slot d))
  obtain ⟨text, htext, hdisplays⟩ := h e he place d
  exact ⟨text, htext, hdisplays.shows depth⟩

theorem shows_renderTag {t : Tag} (hvalid : t.validate = .ok ())
    (hattributes : ∀ a ∈ t.attributes, ∀ place d,
      (c.first ⟨.tagAttribute a, place⟩ d).1.map (·.text) = some (renderAttribute a))
    (hchildren : Gives c Displays t.children) (d : Dependencies) (depth : Nat) :
    Shows depth ((renderTag Format.standard ⟨.tag t, place⟩ t).run c d).1 (t.tags depth) := by
  obtain ⟨name, attributes, children⟩ := t
  obtain ⟨hname, hnames, -⟩ := Tag.validate_iff.1 hvalid
  unfold renderTag
  rw [run_monadBind, run_attributes hattributes, List.map_map]
  generalize (Script.run c (texts _) d).2 = d'
  dsimp only [Function.comp_def]
  split
  · exact shows_start (t := ⟨name, attributes, []⟩) hname hnames rfl nofun depth
  · next x =>
    obtain ⟨inner, hinner, hdisplays⟩ := hchildren (.text x) List.mem_cons_self
      ((.children, 0) :: place) d'
    rw [run_monadBind, run_text?]
    change Shows depth (markText name attributes ">"
      ++ (Option.map _ (c.first ⟨.ofElement (.text x), _⟩ d').1).getD "" ++ _) _
    rw [hinner, hdisplays.escaped x rfl]
    exact shows_enclosed (t := ⟨name, attributes, [.text x]⟩) hname hnames rfl depth
  · next hsome hlone =>
    have hopen : Shows depth (markText name attributes ">")
        [(depth, ⟨name, attributes, children⟩)] :=
      shows_start (t := ⟨name, attributes, children⟩) hname hnames
        (by simp [List.isEmpty_eq_false_iff.2 hsome]) hlone depth
    have hinner := (shows_elements hchildren ⟨.tag ⟨name, attributes, children⟩, place⟩ .children d'
      (depth + 1)).indent
    have hlines := shows_lines (.cons hopen (.cons hinner (.cons (shows_closing hname depth) .nil)))
    rw [run_monadBind]
    simpa [Tag.tags, markText] using hlines

end

theorem displays_element (remaining : Nat) {stack : Stack} {e : Element}
    (hvalid : e.validate = .ok ()) (hheight : e.height ≤ remaining) (place : Place)
    (d : Dependencies) :
    ∃ text, (((binding.dispatcher Format.standard).children remaining stack).first
      ⟨.ofElement e, place⟩ d).1.map (·.text) = some text ∧ Displays text e := by
  refine gives_element ?declaration ?text ?tag remaining hvalid hheight place d
  case declaration => exact fun x => ⟨(shows_renderDeclaration · x), nofun⟩
  case text =>
    intro x
    refine ⟨(shows_escape · x.value), fun y hy => ?_⟩
    rw [Element.text.injEq] at hy
    rw [hy]
  case tag =>
    exact fun place d hvalid hattributes hchildren =>
      ⟨shows_renderTag hvalid hattributes hchildren d, nofun⟩

theorem scan_of_shows {text : String} {xs : List (Nat × Tag)} (h : Shows 0 text xs) :
    List.Forall₂ Shown xs (startTags (scan text)) := by
  obtain ⟨after, ms, hrun, hshown⟩ := h []
  have hmargin : margin 0 = [] := rfl
  rw [hmargin, Text.inset_empty] at hrun
  rw [scan, hrun]
  exact hshown

/-- In the text of a valid document each tag begins in its turn, and its values are found again
once what was escaped is put back: indented with the tags around them, and so unchanged only if
there are none or the value is a single line. -/
theorem values_indented {x : Document} (hvalid : x.validate = .ok ()) (place : Place)
    (d : Dependencies) {maxDepth : Nat} (hheight : x.height ≤ maxDepth) :
    ∃ text,
      ((binding.session d Format.standard maxDepth).render ⟨.document x, place⟩).1 = some text
        ∧ List.Forall₂ Shown x.tags (startTags (scan text))
        ∧ ∀ depth value, indented depth value = value ↔ depth = 0 ∨ Text.OneLine value := by
  unfold Document.height at hheight
  obtain ⟨remaining, rfl⟩ : ∃ remaining, maxDepth = remaining + 1 := ⟨maxDepth - 1, by omega⟩
  have hscript : binding.script ⟨Format.standard, Stack.push {} ⟨.document x, place⟩⟩
      ⟨.document x, place⟩ = some <$> renderDocument Format.standard ⟨.document x, place⟩ x := rfl
  have hdisplayed : Gives (binding.below Format.standard remaining {} ⟨.document x, place⟩) Displays
      x.elements := fun e he => by
    have hle := height_le_of_mem he
    exact displays_element remaining (Document.validate_iff.1 hvalid e he) (by omega)
  have helements := shows_elements hdisplayed ⟨.document x, place⟩ .elements d 0
  rw [binding.render_session, Binding.text_first, hscript, map_eq_pure_bind, run_monadBind]
  refine ⟨_, rfl, ?_, fun depth value => indented_eq_self_iff⟩
  unfold renderDocument
  rw [run_monadBind, run_pure]
  dsimp only
  apply scan_of_shows
  split
  · exact helements
  · have hpage := helements.append ((shows_empty_iff []).2 rfl)
    rwa [String.append_empty, List.append_nil] at hpage

def poem : Document where
  elements := [
    .tag
      { name := "poem"
        children := [
          .tag
            { name := "verse"
              attributes := [{ name := "note", value := some "a & b\nc" }]
              children := [.text { value := "one\n\ntwo < three" }] }] }]

theorem values_indented_poem :
    poem.validate = .ok () ∧ poem.height ≤ 4 ∧ ∃ text,
      ((binding.session {} Format.standard 4).render ⟨.document poem, []⟩).1 = some text
        ∧ List.Forall₂ Shown poem.tags (startTags (scan text))
        ∧ startTags (scan text) =
          [(⟨"", "<poem>", []⟩, some ⟨"\n    ", "<verse note=>", ["a &amp; b\n    c"]⟩),
            (⟨"\n    ", "<verse note=>", ["a &amp; b\n    c"]⟩,
              some ⟨"one\n\n    two &lt; three", "</verse>", []⟩)] := by
  have hvalid : poem.validate = .ok () := by decide +kernel
  have hheight : poem.height ≤ 4 := by decide +kernel
  obtain ⟨text, hrender, hshown, -⟩ := values_indented hvalid [] {} hheight
  have htext : some text = some
      "<poem>\n    <verse note=\"a &amp; b\n    c\">one\n\n    two &lt; three</verse>\n</poem>\n" := by
    rw [← hrender]
    decide +kernel
  refine ⟨hvalid, hheight, text, hrender, hshown, ?_⟩
  rw [Option.some.inj htext]
  decide +kernel

end Markup

end Scribe
