import Scribe.Proofs.Java.Bare
import Scribe.Proofs.Render.Yields

/-!
Where modifiers are written. They stand at the beginning of the line of their declaration, below its
documentation and its annotations; a parameter has its annotations before it on the same line.
-/
namespace Scribe

/-- A text begins with some words, but for what is above them: texts of some sort, with a gap after
each. -/
def Begins (gap : String) (sort : String → Prop) (words text : String) : Prop :=
  ∃ above rest, text = gap.intercalate (above ++ [words ++ rest]) ∧ rest ≠ "" ∧ ∀ t ∈ above, sort t

theorem Format.begins_lines (f : Format) {sort : String → Prop} {above : List String}
    (habove : ∀ t ∈ above, sort t) (words : String) {rest : String} (hrest : rest ≠ "") :
    Begins f.lineTerminator sort words (f.lines (above ++ [words ++ rest])) := by
  have hlast : [words ++ rest].filter (· != "") = [words ++ rest] := by simp [hrest]
  refine ⟨above.filter (· != ""), rest, ?_, hrest, fun t ht => habove t (List.mem_filter.1 ht).1⟩
  rw [lines, join, List.filter_append, hlast]

namespace Java

open Script

def Heading (c : Children) (n : Node) (text : String) : Prop :=
  ∃ (m : Node) (d : Dependencies),
    m.item ∈ n.item.heading ∧ ((text? m).run c d).1 = some text

section

variable {c : Children} {ctx : Context} {n : Node}

theorem yields_headings {slot : Slot} {as : List α} {item : α → Item}
    (h : ∀ a ∈ as, item a ∈ n.item.heading) :
    Yields c (fun _ => True) (fun ts => ∀ t ∈ ts, Heading c n t)
      (texts (n.parts slot (as.map item))) := by
  refine yields_texts fun m hm d _ => ⟨fun text htext => ⟨m, d, ?_, htext⟩, trivial⟩
  obtain ⟨a, ha, place, rfl⟩ := mem_parts hm
  exact h a ha

theorem yields_preamble_heading :
    Yields c (fun _ => True) (fun ts => ∀ t ∈ ts, Heading c n t) (preamble n) := by
  have hnone : Yields c (fun _ => True) (fun ts => ∀ t ∈ ts, Heading c n t) (pure []) :=
    yields_pure nofun
  unfold preamble
  cases hj : n.item.javadoc?
  case' none => refine yields_bind hnone fun javadoc hlines => ?_
  case' some j =>
    have hheading : ∀ k ∈ [j], Item.javadoc k ∈ n.item.heading := by simp [Item.heading, hj]
    refine yields_bind (yields_headings hheading) fun javadoc hlines => ?_
  all_goals
    cases hus : n.item.annotations? with
    | none => exact yields_bind hnone fun _ hannotations =>
        yields_pure (List.forall_mem_append.2 ⟨hlines, hannotations⟩)
    | some us =>
      refine yields_bind (yields_headings fun u hu => ?_) fun _ hannotations =>
        yields_pure (List.forall_mem_append.2 ⟨hlines, hannotations⟩)
      simp [Item.heading, hus, hu]

abbrev Leads (c : Children) (ctx : Context) (n : Node) (ms : Modifiers) : String → Prop :=
  Begins ctx.format.lineTerminator (Heading c n) (modifierWords ctx.stack ms)

theorem yields_declaration_begins {words rest : String} (hrest : rest ≠ "") :
    Yields c (fun _ => True) (Begins ctx.format.lineTerminator (Heading c n) words)
      (declaration ctx.format n (words ++ rest)) :=
  yields_bind yields_preamble_heading fun _ habove =>
    yields_pure (ctx.format.begins_lines habove words hrest)

theorem gives_class_begins (d : ClassDecl) :
    Gives c (fun _ => True) (Leads c ctx n d.modifiers)
      (renderClass ctx n d).run := by
  refine gives_last fun generics => ?_
  cases d.supertype
  case' none => refine gives_last fun supertype => ?_
  case' some t => refine gives_last fun text => gives_last fun supertype => ?_
  all_goals
    refine gives_last fun interfaces => gives_last fun body => gives_lift ?_
    simp only [String.append_assoc]
    exact yields_declaration_begins (by simp)

theorem yields_interface_begins (d : InterfaceDecl) :
    Yields c (fun _ => True)
      (Leads c ctx n d.modifiers)
      (renderInterface ctx n d) := by
  refine yields_last fun generics => yields_last fun interfaces => yields_last fun body => ?_
  simp only [String.append_assoc]
  exact yields_declaration_begins (by simp)

theorem yields_enum_begins (d : EnumDecl) :
    Yields c (fun _ => True)
      (Leads c ctx n d.modifiers)
      (renderEnum ctx n d) := by
  refine yields_last fun interfaces => yields_last fun constants => yields_last fun members => ?_
  simp only [String.append_assoc]
  exact yields_declaration_begins (by simp)

theorem yields_annotationDecl_begins (d : AnnotationDecl) :
    Yields c (fun _ => True)
      (Leads c ctx n d.modifiers)
      (renderAnnotationDecl ctx n d) := by
  refine yields_last fun elements => ?_
  simp only [String.append_assoc]
  exact yields_declaration_begins (by simp)

theorem gives_method_begins (m : Method) :
    Gives c (fun _ => True) (Leads c ctx n m.modifiers)
      (renderMethod ctx n m).run := by
  refine gives_last fun generics => gives_last fun type => gives_last fun parameters => ?_
  refine gives_last fun throws => gives_lift ?_
  simp only [String.append_assoc]
  exact yields_declaration_begins (by simp)

theorem gives_constructor_begins (x : Constructor) :
    Gives c (fun _ => True) (Leads c ctx n x.modifiers)
      (renderConstructor ctx n x).run := by
  unfold renderConstructor
  cases ctx.stack.enclosing?.bind Node.name? with
  | none => exact gives_none
  | some name =>
    refine gives_last fun parameters => gives_last fun throws => gives_lift ?_
    simp only [String.append_assoc]
    exact yields_declaration_begins (by simp)

/-- What is in front of the modifiers of a node, if it is not the text that begins there. -/
def gap (ctx : Context) (n : Node) : String :=
  if n.kind = .field ∧ ctx.stack.parent?.map Node.kind ∈ [some .method, some .constructor] then " "
  else ctx.format.lineTerminator

theorem gives_field_begins {x : Field} (h : n.item = .field x) :
    Gives c (fun _ => True) (Begins (gap ctx n) (Heading c n) (modifierWords ctx.stack x.modifiers))
      (renderField ctx n x).run := by
  have hkind : n.kind = .field := congrArg Item.kind h
  have hannotations : ∀ u ∈ x.annotations, Item.annotationUse u ∈ n.item.heading := by
    simp +contextual [h, Item.heading, Item.annotations?]
  refine gives_last fun type => ?_
  dsimp only
  split
  case h_1 hparent | h_2 hparent =>
    rw [gap, hparent, if_pos ⟨hkind, by decide⟩]
    refine gives_draftBind (gives_lift (yields_headings hannotations)) fun annotations habove => ?_
    refine gives_draftPure ?_
    simp only [String.append_assoc]
    exact ⟨annotations, _, rfl, by simp, habove⟩
  case h_3 hparent =>
    rw [gap, hparent, if_neg fun h => absurd h.2 (by decide)]
    refine gives_last fun value => gives_lift ?_
    simp only [String.append_assoc]
    exact yields_declaration_begins (by simp)
  case h_4 hmethod hconstructor _ =>
    rw [gap, if_neg fun h => ?parameter]
    case parameter =>
      simp only [List.mem_cons, List.not_mem_nil, or_false] at h
      exact h.2.elim hmethod hconstructor
    refine gives_last fun value => gives_lift ?_
    simp only [String.append_assoc]
    exact yields_declaration_begins (by simp)

theorem gives_begins {ms : Modifiers} (h : n.item.modifiers? = some ms) :
    Gives c (fun _ => True) (Begins (gap ctx n) (Heading c n) (modifierWords ctx.stack ms))
      (script ctx n) := by
  obtain ⟨item, place⟩ := n
  cases item with
  | classDecl d => exact Option.some.inj h ▸ gives_class_begins d
  | interfaceDecl d => exact Option.some.inj h ▸ gives_map (yields_interface_begins d)
  | enumDecl d => exact Option.some.inj h ▸ gives_map (yields_enum_begins d)
  | annotationDecl d => exact Option.some.inj h ▸ gives_map (yields_annotationDecl_begins d)
  | method m => exact Option.some.inj h ▸ gives_method_begins m
  | constructor x => exact Option.some.inj h ▸ gives_constructor_begins x
  | field x => exact Option.some.inj h ▸ gives_field_begins rfl
  | _ => exact nomatch h

end

/-! The words themselves. -/

theorem ne_method_of_holds {p n : Node} (h : p.item.Holds n.item) :
    ¬ (p.kind = .annotationDecl ∧ n.kind = .method) := by
  rintro ⟨hp, hn⟩
  obtain ⟨item, place⟩ := p
  cases item with
  | annotationDecl d =>
    have hkind {i : Item} (heq : i = n.item) : i.kind = .method := (congrArg Item.kind heq).trans hn
    rcases Item.holds_iff.1 h with h | h
    · simp only [Item.heading, List.mem_append, List.mem_map] at h
      rcases h with ⟨j, -, heq⟩ | ⟨u, -, heq⟩ <;> exact absurd (hkind heq) (by simp [Item.kind])
    · obtain ⟨x, -, heq⟩ := List.mem_map.1 h
      exact absurd (hkind heq) (by simp [Item.kind])
  | value v => cases v <;> simp [Node.kind, Item.kind, Value.kind] at hp
  | _ => simp [Node.kind, Item.kind] at hp

theorem mem_implicitModifiers {s : Stack} {n : Node} (h : ∀ p ∈ s.top?, p.item.Holds n.item)
    {m : Modifier} :
    m ∈ implicitModifiers (s.push n) ↔ Implied (s.top?.map Node.kind) n.kind m := by
  unfold implicitModifiers
  rw [Stack.top?_push, Stack.parent?_push]
  cases htop : s.top? with
  | none => exact ⟨nofun, nofun⟩
  | some p =>
    exact ⟨fun hm => implied_of_mem hm (ne_method_of_holds (h p htop)), Implied.mem⟩

structure Unimplied (s : Stack) (n : Node) (ms : Modifiers) (written : List Modifier) : Prop where
  mem_iff : ∀ m, m ∈ written ↔ ms.contains m ∧ ¬ Implied (s.top?.map Node.kind) n.kind m
  order : written.Pairwise (·.rank < ·.rank)

theorem exists_unimplied {s : Stack} {n : Node} (h : ∀ p ∈ s.top?, p.item.Holds n.item)
    (ms : Modifiers) : ∃ written, Unimplied s n ms written
      ∧ modifierWords (s.push n) ms = String.join (written.map (·.keyword ++ " ")) := by
  refine ⟨_, ⟨fun m => ?_, ?_⟩, rfl⟩
  · rw [List.mem_filter, Modifiers.mem_toList, ← mem_implicitModifiers h]
    simp
  · have hall : Modifier.all.Pairwise (·.rank < ·.rank) := by decide
    exact (hall.filter _).filter _

/-- Modifiers that are implied where they stand make no difference: trees that are the same without
them come to the same text and leave the session the same, at any depth limit and below any nodes.
The other modifiers of a node are all written, in their order, at the beginning of its line; for a
parameter this is after its annotations. -/
theorem implied_immaterial (d : Dependencies) (f : Format) (maxDepth : Nat) (s : Stack) :
    let handle (d : Dependencies) (s : Stack) : Handle := ⟨binding.session d f maxDepth, s⟩
    (∀ (i j : Item) (place : Place),
      i.bare (s.top?.map Node.kind) = j.bare (s.top?.map Node.kind) →
        (handle d s).render ⟨i, place⟩ = (handle d s).render ⟨j, place⟩)
    ∧ ∀ (n : Node) (ms : Modifiers) (text : String), (∀ p ∈ s.top?, p.item.Holds n.item) →
      n.item.modifiers? = some ms → ((handle d s).render n).1 = some text →
        ∃ written, Unimplied s n ms written
          ∧ Begins (gap ⟨f, s.push n⟩ n)
            (fun t => ∃ (m : Node) (e : Dependencies), m.item ∈ n.item.heading
              ∧ ((handle e (s.push n)).render m).1 = some t)
            (String.join (written.map (·.keyword ++ " "))) text := by
  intro handle
  have hrender (d : Dependencies) (s : Stack) (n : Node) : (handle d s).render n =
      ((text? n).run ((dispatcher f).children (maxDepth - s.depth) s) d).map id
        fun e => binding.session e f maxDepth := rfl
  refine ⟨fun i j place hij => ?_, fun n ms text hheld hms htext => ?_⟩
  · have hbare : Node.bare (s.top?.map Node.kind) ⟨i, place⟩ =
        Node.bare (s.top?.map Node.kind) ⟨j, place⟩ := congrArg (Node.mk · place) hij
    rw [hrender, hrender, ← text?_bare, hbare, text?_bare]
  · obtain ⟨written, hwritten, hwords⟩ := exists_unimplied hheld ms
    refine ⟨written, hwritten, ?_⟩
    rw [← hwords]
    rw [hrender] at htext
    cases hremaining : maxDepth - s.depth with
    | zero =>
      rw [hremaining] at htext
      exact nomatch htext
    | succ remaining =>
      rw [hremaining, run_text?_succ] at htext
      have hinner : maxDepth - (s.push n).depth = remaining := by
        rw [Stack.depth_push]
        omega
      simp only [hrender, hinner]
      exact (gives_begins hms d trivial).1 text htext

theorem implied_immaterial_shape :
    let area (ms : List Modifier) : Method :=
      { name := "area", type := .ofName "double", modifiers := .ofList ms }
    let shape (ms : List Modifier) : Item :=
      .interfaceDecl { name := "Shape", methods := [area ms] }
    let wordy : Node := ⟨shape [.publicAccess, .abstract], []⟩
    let terse : Node := ⟨shape [], []⟩
    let around : Node := ⟨shape [.publicAccess, .default], []⟩
    let n : Node := ⟨.method (area [.publicAccess, .default]), []⟩
    let handle (s : Stack) : Handle := ⟨binding.session {} {} 3, s⟩
    let text := "default double area() \x7b\x7d"
    wordy.item.bare none = terse.item.bare none
      ∧ (handle {}).render wordy = (handle {}).render terse
      ∧ ((handle {}).render terse).1 = some "interface Shape \x7b\n    double area();\n\x7d"
      ∧ around.item.Holds n.item ∧ ((handle ⟨[around]⟩).render n).1 = some text
      ∧ ∃ written sort, Unimplied ⟨[around]⟩ n (.ofList [.publicAccess, .default]) written
        ∧ Begins "\n" sort (String.join (written.map (·.keyword ++ " "))) text := by
  intro area shape wordy terse around n handle text
  have hmodifiers : (Modifiers.ofList [.publicAccess, .abstract]).without
      (Implied (some .interfaceDecl) .method) =
      (Modifiers.ofList []).without (Implied (some .interfaceDecl) .method) := by decide +kernel
  have hbare : wordy.item.bare none = terse.item.bare none := by
    simp only [wordy, terse, shape, area, Item.bare, InterfaceDecl.bare, List.map_cons, Method.bare,
      hmodifiers]
  have hheld : around.item.Holds n.item := by simp [around, shape, n]
  have htext : ((handle ⟨[around]⟩).render n).1 = some text := by decide +kernel
  obtain ⟨hsame, -⟩ := implied_immaterial {} {} 3 {}
  obtain ⟨-, hwritten⟩ := implied_immaterial {} {} 3 ⟨[around]⟩
  obtain ⟨written, hunimplied, hbegins⟩ := hwritten n _ text
    (fun p hp => Option.some.inj hp ▸ hheld) rfl htext
  exact ⟨hbare, hsame _ _ [] hbare, by decide +kernel, hheld, htext, written, _, hunimplied,
    hbegins⟩

end Java

end Scribe
