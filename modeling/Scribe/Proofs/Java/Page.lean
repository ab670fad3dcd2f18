import Scribe.Proofs.Java.Layout

/-!
A file in different formats: the same lines in all of them, and the same names used.
-/
namespace Scribe.Java

open Script
open Text (OneLine)

structure LaidOut (p : Prop) (x : RegularFormat → FileText) : Prop where
  javadoc : Group p fun f => (x f).javadoc
  package : Group p fun f => (x f).packageLine
  imports : Each (Group p) fun f => (x f).imports
  staticImports : Each (Group p) fun f => (x f).staticImports
  classes : Each (Group p) fun f => (x f).classes

theorem LaidOut.text {p : Prop} {x : RegularFormat → FileText} (h : LaidOut p x) :
    ∃ ls, (p → WellSpaced ls) ∧ ∀ f : RegularFormat, (x f).text f.1 = f.1.page ls := by
  have himports := Passage.lines (h.imports.append h.staticImports)
  exact (Passage.separate (.cons h.javadoc (.cons h.package (.cons himports
    (.cons (Passage.separate h.classes) .nil))))).page

theorem group_packageLine {p : Prop} {text : RegularFormat → FileText} {package? : Option String}
    (h : ∀ f, (text f).package = package?) (hname : ∀ package ∈ package?, OneLine package) :
    Group p fun f => (text f).packageLine := by
  simp only [FileText.packageLine, h]
  cases package? with
  | none => exact .empty
  | some package =>
    have hline : OneLine ("package " ++ package) :=
      Text.oneLine_append.2 ⟨by decide, hname package rfl⟩
    exact ((Passage.line hline).close (.line (by decide) (by decide))).group

section

variable {p : Prop} {c : RegularFormat → Children} {x : File} {place : Place}

/-- Nodes of a file are rendered alike in every format, the imports of loaded names included. -/
abbrev AnsweredIn (p : Prop) (c : RegularFormat → Children) : Prop :=
  ∀ m : Node, m.kind ≠ .file → m.item.OneLine → (p → m.item.Throughout Item.Dense) →
    Uniform c (Perhaps (Varies p (some .file) m.item)) fun _ => text? m

theorem uniform_importBlock {n : Node} (hc : AnsweredIn p c) :
    Uniform c (Each (Group p)) fun _ => importBlock n := by
  refine uniform_dependencies_bind fun d hd => uniform_texts fun m hm => ?_
  obtain ⟨name, hname, place, rfl⟩ := mem_parts hm
  have himport : (Item.importDecl { type := .ofName name }).OneLine := by
    rw [Item.oneLine_iff]
    exact ⟨by simpa [TypeRef.ofName] using hd name hname,
      by simp [Item.heading, Item.javadoc?, Item.annotations?]⟩
  have hdense : (Item.importDecl { type := .ofName name }).Throughout Item.Dense := by
    rw [Item.throughout_iff]
    simp [Item.Dense, Item.heading, Item.javadoc?, Item.annotations?]
  exact hc ⟨.importDecl { type := .ofName name }, place⟩ (by simp [Node.kind, Item.kind]) himport
    fun _ => hdense

theorem uniform_staticImports (hc : Answered p c ⟨.file x, place⟩) :
    Uniform c (Each (Group p)) fun _ => staticImports ⟨.file x, place⟩ x.imports := by
  refine uniform_texts fun m hm => ?_
  obtain ⟨i, hi, -, place, rfl⟩ := mem_staticImports hm
  exact hc ⟨.importDecl i, place⟩ (by simp [hi])

theorem uniform_comment (hc : Answered p c ⟨.file x, place⟩) :
    Uniform c (Perhaps (Group p)) fun _ => comment ⟨.file x, place⟩ x := by
  unfold comment
  cases hj : x.javadoc with
  | none => exact uniform_none
  | some j =>
    exact hc ((Node.mk (.file x) place).part .javadoc (.javadoc j))
      (by simp [Node.part, Item.heading, Item.javadoc?, hj])

theorem uniform_content (h : (Item.file x).OneLine)
    (hcode : p → (Item.file x).Throughout Item.Dense) (hc : AnsweredIn p c) :
    Uniform c (LaidOut p) fun _ => content ⟨.file x, place⟩ x := by
  have hanswered : Answered p c ⟨.file x, place⟩ := fun m hm =>
    hc m (Item.ne_file_of_holds hm) (h.holds hm) fun hp => (hcode hp).holds hm
  have hdecls : ∀ d ∈ x.classes, (Item.file x).Holds (.ofTypeDecl d) := fun d hd =>
    Item.holds_iff.2 (.inr (List.mem_append_right _ (List.mem_map_of_mem hd)))
  have hpackage : ∀ package ∈ x.package?, OneLine package := fun _ hpackage =>
    File.oneLine_of_package? (h.own x.name (by simp)) hpackage
  refine uniform_bind (uniform_groups hanswered hdecls fun d => by cases d <;> rfl)
    fun classes hclasses => ?_
  refine uniform_bind (uniform_importBlock hc) fun imports himports => ?_
  refine uniform_bind (uniform_staticImports hanswered) fun staticImports hstatic => ?_
  refine uniform_bind (uniform_comment hanswered) fun javadoc hjavadoc => uniform_pure ?_
  exact ⟨Passage.getD hjavadoc, group_packageLine (fun _ => rfl) hpackage, himports, hstatic,
    hclasses⟩

end

theorem oneLine_opened {x : File} {d : Dependencies} (h : (Item.file x).OneLine)
    (hd : d.OneLine) : (x.opened d).OneLine :=
  File.forall_loaded_opened (fun _ hheld => (h.holds hheld).own _ (by simp)) hd

theorem uniform_spaced {p : Prop} (remaining : Nat) {x : File} {place : Place}
    (h : (Item.file x).OneLine) (hcode : p → (Item.file x).Throughout Item.Dense) :
    Uniform (fun f => below f.1 remaining {} ⟨.file x, place⟩) (PagedBy fun ls => p → WellSpaced ls)
      fun f => script ⟨f.1, Stack.push {} ⟨.file x, place⟩⟩ ⟨.file x, place⟩ := by
  have hstack : ∀ m ∈ (Stack.push {} ⟨.file x, place⟩).nodes, ∀ text ∈ m.item.strings,
      OneLine text := by
    intro m hm
    obtain rfl := List.mem_singleton.1 hm
    exact h.own
  have hcontent := @uniform_content p _ x place h hcode fun m hfile hm hdense =>
    uniform_first remaining hfile hm hdense hstack
  have hfile : Uniform (fun f => below f.1 remaining {} ⟨.file x, place⟩) (LaidOut p)
      fun _ => renderFile ⟨.file x, place⟩ x := by
    intro d hd
    obtain ⟨text, e, htext, he, hrun⟩ := hcontent (x.opened d) (oneLine_opened h hd)
    refine ⟨text, { e with package := d.package }, htext, he, fun f => ?_⟩
    rw [(run_renderFile x d).1, hrun f]
  refine uniform_bind hfile fun text htext => uniform_pure ?_
  obtain ⟨ls, hspaced, hls⟩ := htext.text
  exact ⟨ls, hspaced, funext fun f => congrArg some (hls f)⟩

theorem uniform_file (remaining : Nat) {x : File} {place : Place} (h : (Item.file x).OneLine) :
    Uniform (fun f => below f.1 remaining {} ⟨.file x, place⟩) Paged
      fun f => script ⟨f.1, Stack.push {} ⟨.file x, place⟩⟩ ⟨.file x, place⟩ :=
  (uniform_spaced (p := False) remaining h nofun).mono fun _ => PagedBy.paged

end Scribe.Java
