import Scribe.Proofs.Java.Nesting

/-!
Whatever is rendered from a model without brackets and quotes in its own strings is well bracketed.
A file also writes the names that were loaded for it, so that these are kept free of brackets while
its classes are rendered.
-/
namespace Scribe.Java

open Markup (Blank)
open Script

/-- How any node of a tidy model is rendered below a file, the imports of loaded names included. -/
abbrev Orderly (c : Children) : Prop :=
  ∀ m : Node, m.kind ≠ .file → m.item.Throughout Tidy → Gives c TidyNames (Paired m.item) (text? m)

section

variable {c : Children} {x : File} {place : Place}

theorem Orderly.answers {n : Node} (hc : Orderly c) (hn : n.item.Throughout Tidy) :
    Answers Paired c TidyNames n :=
  fun m hm => hc m (Item.ne_file_of_holds hm) (hn.holds hm)

theorem yields_importBlock {n : Node} (hc : Orderly c) :
    Yields c TidyNames (fun ts => ∀ t ∈ ts, Balanced t) (importBlock n) := by
  refine yields_dependencies_bind fun d hd => yields_texts fun m hm => ?_
  obtain ⟨name, hname, place, rfl⟩ := mem_parts hm
  have htidy : (Item.importDecl { type := .ofName name }).Throughout Tidy := by
    rw [Item.throughout_iff_forall]
    exact ⟨by simpa [Tidy, TypeRef.ofName] using hd name hname,
      by simp [Item.inside, Item.heading, Item.javadoc?, Item.annotations?]⟩
  exact hc ⟨.importDecl { type := .ofName name }, place⟩ (by simp [Node.kind, Item.kind]) htidy

theorem yields_staticImports (hc : Answers Paired c TidyNames ⟨.file x, place⟩) :
    Yields c TidyNames (fun ts => ∀ t ∈ ts, Balanced t)
      (staticImports ⟨.file x, place⟩ x.imports) := by
  refine yields_texts fun m hm => ?_
  obtain ⟨i, hi, -, place, rfl⟩ := mem_staticImports hm
  exact hc ⟨.importDecl i, place⟩ (by simp [hi])

theorem gives_comment (hc : Answers Paired c TidyNames ⟨.file x, place⟩) :
    Gives c TidyNames Balanced (comment ⟨.file x, place⟩ x) := by
  unfold comment
  cases hj : x.javadoc with
  | none => exact gives_none
  | some j =>
    exact hc ((Node.mk (.file x) place).part .javadoc (.javadoc j))
      (by simp [Node.part, Item.heading, Item.javadoc?, hj])

theorem balanced_fileText {t : FileText} {f : Format} (hf : Blank f) (hjavadoc : Balanced t.javadoc)
    (hpackage : Balanced t.packageLine) (himports : ∀ line ∈ t.imports, Balanced line)
    (hstatic : ∀ line ∈ t.staticImports, Balanced line) (hclasses : ∀ d ∈ t.classes, Balanced d) :
    Balanced (t.text f) := by
  have himports := balanced_lines hf (List.forall_mem_append.2 ⟨himports, hstatic⟩)
  have hparts : Balanced (f.separate
      [t.javadoc, t.packageLine, f.lines (t.imports ++ t.staticImports), f.separate t.classes]) := by
    refine balanced_separate hf ?_
    simp only [List.forall_mem_cons, List.not_mem_nil, IsEmpty.forall_iff, implies_true, and_true]
    exact ⟨hjavadoc, hpackage, himports, balanced_separate hf hclasses⟩
  unfold FileText.text
  dsimp only
  split
  · exact hparts
  · exact hparts.append (balanced_lineTerminator hf)

theorem yields_content {f : Format} (hf : Blank f) (hx : (Item.file x).Throughout Tidy)
    (hc : Orderly c) :
    Yields c TidyNames (fun t => Balanced (t.text f)) (content ⟨.file x, place⟩ x) := by
  have hanswers : Answers Paired c TidyNames ⟨.file x, place⟩ := hc.answers hx
  have hdecls : ∀ d ∈ x.classes, (Item.file x).Holds (.ofTypeDecl d) := fun d hd =>
    Item.holds_iff.2 (.inr (List.mem_append_right _ (List.mem_map_of_mem hd)))
  refine yields_bind (yields_balanced hanswers hdecls) fun classes hclasses => ?_
  refine yields_bind (yields_importBlock hc) fun imports himports => ?_
  refine yields_bind (yields_staticImports hanswers) fun staticImports hstatic => ?_
  refine yields_bind (gives_comment hanswers) fun javadoc hjavadoc => yields_pure ?_
  refine balanced_fileText hf ?_ ?_ himports hstatic hclasses
  · cases javadoc with
    | none => exact balanced_empty
    | some javadoc => exact hjavadoc javadoc rfl
  · unfold FileText.packageLine
    cases hpackage : x.package? with
    | none => exact balanced_empty
    | some package =>
      have hname : Unmarked x.name := hx.own x.name (by simp)
      have hpackage : Unmarked package := File.all_package? hname (by decide) hpackage
      refine balanced_of_unmarked ?_
      simp only [Unmarked, Text.all_append]
      exact ⟨⟨by decide, hpackage⟩, by decide⟩

theorem tidyNames_opened {d : Dependencies} (hx : (Item.file x).Throughout Tidy)
    (hd : TidyNames d) : TidyNames (x.opened d) :=
  File.forall_loaded_opened (fun _ hheld => (hx.holds hheld).own _ (by simp)) hd

end

theorem gives_first_tidy {f : Format} (hf : Blank f) (remaining : Nat) {stack : Stack} {n : Node}
    (hfile : n.kind ≠ .file) (hn : n.item.Throughout Tidy)
    (hstack : ∀ m ∈ stack.nodes, m.item.Throughout Tidy) :
    Gives ((dispatcher f).children remaining stack) TidyNames (Paired n.item) (text? n) := by
  refine gives_first (R := Item.Throughout Tidy) (fun _ _ h hm => h.holds hm)
    (fun c stack n hfile hn hstack hc => ?_) remaining hfile hn hstack
  exact gives_script hf hfile hn.own (fun m hm => (hstack m hm).own) hc

theorem balanced_file {f : Format} (hf : Blank f) (remaining : Nat) {x : File} {place : Place}
    (hx : (Item.file x).Throughout Tidy) {d : Dependencies} (hd : TidyNames d) :
    Balanced ((fileText f remaining {} x place d).text f) := by
  have hstack : ∀ m ∈ (Stack.push {} ⟨.file x, place⟩).nodes, m.item.Throughout Tidy := by
    intro m hm
    obtain rfl := List.mem_singleton.1 hm
    exact hx
  have hcontent := @yields_content (below f remaining {} ⟨.file x, place⟩) x place f hf hx
    fun m hfile hm => gives_first_tidy hf remaining hfile hm hstack
  unfold fileText
  dsimp only
  rw [(run_renderFile x d).1]
  exact (hcontent (x.opened d) (tidyNames_opened hx hd)).1

/-- Where no string of a model has a bracket or a quote in it, quoted text excepted, what is
rendered from it is well bracketed: whatever the depth limit leaves out, whatever the quoted text
holds, and however deep its lines are indented. -/
theorem render_wellBracketed {n : Node} (hn : n.item.Throughout Tidy) {f : Format} (hf : Blank f)
    (ignored : List IgnorePattern) (maxDepth : Nat) :
    ∀ text ∈ ((session ignored f maxDepth).render n).1, WellBracketed text := by
  have hnames : TidyNames { ignored } := nofun
  intro text htext
  by_cases hfile : n.kind = .file
  · obtain ⟨x, place, rfl⟩ := eq_file_of_kind hfile
    rw [render_file] at htext
    cases maxDepth with
    | zero => exact nomatch htext
    | succ remaining =>
      obtain rfl := Option.some.inj htext
      exact (balanced_file hf remaining hn hnames).wellBracketed
  · have hfirst : Gives ((dispatcher f).children maxDepth {}) TidyNames (Paired n.item) (text? n) :=
      gives_first_tidy hf maxDepth hfile hn fun _ hm => nomatch hm
    exact ((hfirst { ignored } hnames).1 text htext).balanced.wellBracketed

def bracketed : ClassDecl where
  name := "Bracketed"
  javadoc := some { text := "Two\nlines." }
  fields :=
    [{ name := "names", type := { name := "List", arguments := [.type (.ofName "String")] }
       value := some (.invocation none "parse" [.text ")]>\x7d\n\"", .array [.text "\\"]]) }]

theorem render_wellBracketed_bracketed :
    let n : Node := ⟨.classDecl bracketed, []⟩
    n.item.Throughout Tidy ∧ Blank Format.standard
      ∧ ((session ignorePatterns .standard 8).render n).1 = some ("/**\n * Two\n * lines.\n */\n"
          ++ "class Bracketed \x7b\n    List<String> names = "
          ++ "parse(\")]>\x7d\\n\\\"\", \x7b\"\\\\\"\x7d);\n\x7d")
      ∧ ∀ text ∈ ((session ignorePatterns .standard 8).render n).1, WellBracketed text := by
  intro n
  have hn : n.item.Throughout Tidy := by
    simp [n, Item.throughout_iff_forall, Item.inside, Item.heading, bracketed, Item.javadoc?,
      Item.annotations?, Item.valueContents, TypeRef.ofName, Tidy, Item.ofArgument]
    decide
  have hf : Blank Format.standard := ⟨by decide, .inl rfl⟩
  exact ⟨hn, hf, by decide +kernel, render_wellBracketed hn hf ignorePatterns 8⟩

end Scribe.Java
