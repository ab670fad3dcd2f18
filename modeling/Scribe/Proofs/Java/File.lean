import Mathlib.Data.List.Basic
import Scribe.Proofs.Java.Chain

/-!
The course of a file: it claims the names it declares, loads the imports it asks for, renders its
classes, and only then writes one import statement for each loaded name. Nothing after the classes
refers to a type.
-/
namespace Scribe

namespace Dependencies

/-- The package of a file, where none is set yet. -/
def enter (d : Dependencies) (package : Option String) : Dependencies :=
  match package with
  | some package => (d.setPackage package).2
  | none => d

theorem enter_eq (d : Dependencies) (package : Option String) :
    d.enter package = { d with package := d.package.or package } := by
  obtain ⟨ignored, loaded, owners, current⟩ := d
  cases package <;> cases current <;> rfl

theorem Claimed.enter {d : Dependencies} (h : d.Claimed) (package : Option String) :
    (d.enter package).Claimed := by
  rw [enter_eq]
  exact h.of_package _

theorem Consistent.enter {d : Dependencies} (h : d.Consistent) (package : Option String) :
    (d.enter package).Consistent := by
  rw [enter_eq]
  exact h.of_package _

end Dependencies

namespace File

def declared (x : File) : List String := TypeDecl.declaredNames x.package? x.classes

def imported (x : File) : List String := (x.imports.filter (!·.isStatic)).map (·.type.name)

/-- The dependencies from which the classes of a file are rendered. -/
def opened (x : File) (d : Dependencies) : Dependencies :=
  let d := x.declared.foldl .reserve (d.enter x.package?)
  (x.imported.filter d.wanted).foldl .refer d

/-- What is rendered for a file: what it holds, and an import of each loaded name. -/
def Renders (x : File) (i : Item) : Prop :=
  (Item.file x).Holds i ∨ ∃ name, i = .importDecl { type := .ofName name }

theorem ne_file_of_renders {x : File} {i : Item} (h : x.Renders i) : i.kind ≠ .file := by
  rcases h with h | ⟨name, rfl⟩
  · exact Item.ne_file_of_holds h
  · nofun

theorem steps_opened (x : File) (d : Dependencies) :
    Dependencies.Steps (d.enter x.package?) (x.opened d) :=
  (Dependencies.steps_reserve_foldl _ x.declared).trans (Dependencies.steps_refer_foldl _ _)

theorem mem_loaded_opened {x : File} {d : Dependencies} {name : String}
    (h : name ∈ (x.opened d).loaded) : name ∈ x.imported ∨ name ∈ d.loaded := by
  unfold opened at h
  rcases Dependencies.mem_of_mem_loaded_refer_foldl h with h | h
  · exact .inl (List.mem_filter.1 h).1
  · rw [Dependencies.loaded_reserve_foldl, Dependencies.enter_eq] at h
    exact .inr h

theorem forall_loaded_opened {P : String → Prop} {x : File} {d : Dependencies}
    (himport : ∀ i, (Item.file x).Holds (.importDecl i) → P i.type.name)
    (hd : ∀ name ∈ d.loaded, P name) : ∀ name ∈ (x.opened d).loaded, P name := by
  intro name hname
  rcases mem_loaded_opened hname with hname | hname
  · obtain ⟨i, hi, rfl⟩ := List.mem_map.1 hname
    exact himport i (by simp [(List.mem_filter.1 hi).1])
  · exact hd name hname

end File

namespace Java

open Script

/-- What a file does before its classes; tells whether it has set the package. -/
def opening (x : File) : Script Bool := do
  let ownsPackage ← match x.package? with
    | some package => Script.setPackage package
    | none => pure false
  reserveAll x.declared
  loadImports x.imports
  return ownsPackage

def comment (n : Node) (x : File) : Script (Option String) :=
  match x.javadoc with
  | some j => Script.text? (n.part .javadoc (.javadoc j))
  | none => pure none

def content (n : Node) (x : File) : Script FileText := do
  let classes ← Script.texts (n.parts .classes (x.classes.map .ofTypeDecl))
  let imports ← importBlock n
  let staticImports ← staticImports n x.imports
  let javadoc ← comment n x
  return { javadoc := javadoc.getD "", package := x.package?, imports, staticImports, classes }

def closing (x : File) (ownsPackage : Bool) : Script Unit :=
  if ownsPackage then do
    let _ ← Script.unsetPackage (x.package?.getD "")
    return ()
  else return ()

theorem closing_bind (x : File) (ownsPackage : Bool) (a : α) :
    (closing x ownsPackage >>= fun _ => pure a) =
      if ownsPackage then do
        let _ ← Script.unsetPackage (x.package?.getD "")
        return a
      else return a := by
  unfold closing
  split <;> simp only [LawfulMonad.bind_assoc, pure_bind]

theorem renderFile_eq (n : Node) (x : File) :
    renderFile n x = do
      let ownsPackage ← opening x
      let text ← content n x
      closing x ownsPackage
      return text := by
  simp only [closing_bind]
  unfold renderFile opening content comment File.declared
  cases x.package? <;> cases x.javadoc <;> simp only [LawfulMonad.bind_assoc, pure_bind]

theorem run_reserveAll (c : Children) (names : List String) (d : Dependencies) :
    (reserveAll names).run c d = ((), names.foldl .reserve d)
      ∧ (reserveAll names).asks c d = [] := by
  induction names generalizing d with
  | nil => exact ⟨rfl, rfl⟩
  | cons name names ih => exact ih _

theorem run_loadImports (c : Children) (imports : List Import) (d : Dependencies) :
    (loadImports imports).run c d =
        ((), (((imports.filter (!·.isStatic)).map (·.type.name)).filter d.wanted).foldl .refer d)
      ∧ (loadImports imports).asks c d = [] := by
  induction imports generalizing d with
  | nil => exact ⟨rfl, rfl⟩
  | cons i imports ih =>
    unfold loadImports
    cases hi : i.isStatic with
    | true => simpa [hi] using ih d
    | false =>
      simp only [hi, Bool.not_false, ↓reduceIte, List.filter_cons_of_pos, List.map_cons]
      rw [run_dependencies_bind, asks_dependencies_bind, run_ite, asks_ite]
      cases hw : d.wanted i.type.name with
      | false =>
        rw [List.filter_cons_of_neg (by simp [hw])]
        rw [Dependencies.wanted, Bool.not_eq_false'] at hw
        rw [hw]
        exact ih d
      | true =>
        have hkeep : (d.refer i.type.name).wanted = d.wanted :=
          Dependencies.wanted_steps (d.steps_refer i.type.name)
        rw [List.filter_cons_of_pos hw, List.foldl_cons, ← hkeep]
        have hrefer := Dependencies.refer_of_wanted hw
        rw [Dependencies.wanted, Bool.not_eq_true'] at hw
        rw [hw, Bool.false_or, hrefer]
        cases d.conflicts i.type.name with
        | true => exact ih d
        | false => exact ih (d.load i.type.name).2

theorem run_opening (c : Children) (x : File) (d : Dependencies) :
    (opening x).run c d = (x.package?.isSome && d.package.isNone, x.opened d)
      ∧ (opening x).asks c d = [] := by
  unfold opening File.opened File.imported Dependencies.enter
  cases x.package? with
  | none =>
    simp only [pure_bind, run_monadBind, asks_monadBind, run_reserveAll, run_loadImports]
    exact ⟨rfl, rfl⟩
  | some package =>
    simp only [run_monadBind, asks_monadBind, run_reserveAll, run_loadImports]
    refine ⟨Prod.ext ?_ rfl, rfl⟩
    change (d.setPackage package).1 = d.package.isNone
    unfold Dependencies.setPackage
    cases d.package <;> rfl

/-- A file that has set the package gives it back, and another one finds it as it was. -/
theorem run_closing (c : Children) (x : File) {d e : Dependencies}
    (h : e.package = d.package.or x.package?) :
    (closing x (x.package?.isSome && d.package.isNone)).run c e =
        ((), { e with package := d.package })
      ∧ (closing x (x.package?.isSome && d.package.isNone)).asks c e = [] := by
  obtain ⟨ignored, loaded, owners, current⟩ := e
  unfold closing
  cases hd : d.package with
  | some package =>
    rw [hd, Option.some_or] at h
    simp only [Option.isNone_some, Bool.and_false, Bool.false_eq_true, ↓reduceIte]
    subst h
    exact ⟨rfl, rfl⟩
  | none =>
    rw [hd, Option.none_or] at h
    subst h
    cases x.package? with
    | none => exact ⟨rfl, rfl⟩
    | some package =>
      refine ⟨congrArg (((), ·)) ?_, rfl⟩
      simp [Dependencies.unsetPackage]

variable {f : Format} {remaining : Nat} {stack : Stack} {n : Node} {d : Dependencies}

/-! The parts of a file that refer to no type. -/

theorem first_of_fixed {m : Node}
    (h : ∀ c e, ((script ⟨f, stack.push m⟩ m).run c e).2 = e) (d : Dependencies) :
    (((dispatcher f).children remaining stack).first m d).2 = d := by
  cases remaining with
  | zero => rfl
  | succ remaining => rw [dependencies_first, h]

theorem first_importDecl (i : Import) (place : Place) :
    (((dispatcher f).children remaining stack).first ⟨.importDecl i, place⟩ d).2 = d :=
  first_of_fixed (fun c e => (run_importDecl _ i place c e).1) d

theorem first_javadocTag (t : JavadocTag) (place : Place) :
    (((dispatcher f).children remaining stack).first ⟨.javadocTag t, place⟩ d).2 = d :=
  first_of_fixed (fun _ _ => rfl) d

theorem first_javadoc (j : Javadoc) (place : Place) :
    (((dispatcher f).children remaining stack).first ⟨.javadoc j, place⟩ d).2 = d := by
  cases remaining with
  | zero => rfl
  | succ remaining =>
    rw [dependencies_first, script_javadoc]
    unfold renderJavadoc
    rw [run_ite]
    split
    · rfl
    · rw [run_monadBind, run_texts_of_fixed fun m hm => ?_]
      · rfl
      · obtain ⟨t, _, place, rfl⟩ := mem_parts hm
        exact first_javadocTag t place

def importLine (name : String) : String := "import " ++ name ++ ";"

theorem filterMap_parts {slot : Slot} {as : List α} {item : α → Item} {g : Node → Option β}
    {h : α → Option β} (hg : ∀ a ∈ as, ∀ place, g ⟨item a, place⟩ = h a) :
    (n.parts slot (as.map item)).filterMap g = as.filterMap h := by
  unfold Node.parts
  rw [List.mapIdx_eq_zipIdx_map, List.zipIdx_map, List.map_map, List.filterMap_map]
  calc
    _ = as.zipIdx.filterMap (h ∘ Prod.fst) :=
      List.filterMap_congr fun ai hai => hg ai.1 (List.fst_mem_of_mem_zipIdx hai) _
    _ = as.filterMap h := by rw [← List.filterMap_map, List.zipIdx_map_fst]

theorem text_importDecl (i : Import) (place : Place) :
    (((dispatcher f).children (remaining + 1) stack).first ⟨.importDecl i, place⟩ d).1.map
      (·.text) =
      ((renderImport i).run (below f remaining stack ⟨.importDecl i, place⟩) d).1 := by
  rw [text_first]
  rfl

theorem text_importDecl_ofName (name : String) (place : Place) :
    (((dispatcher f).children (remaining + 1) stack).first
      ⟨.importDecl { type := .ofName name }, place⟩ d).1.map (·.text) =
      (Option.guard d.wanted name).map importLine := by
  rw [text_importDecl]
  unfold renderImport Dependencies.wanted
  rw [run_dependencies_bind, run_ite, Option.guard_def]
  cases h : d.ignores name || d.isSamePackage name <;> simp only [TypeRef.ofName, h] <;> rfl

/-- The import block: beyond the depth limit nothing, and otherwise one statement for each loaded
name that still needs one. -/
theorem run_importBlock (d : Dependencies) :
    (importBlock n).run (below f remaining stack n) d =
      (if remaining = 0 then [] else (d.loaded.filter d.wanted).map importLine, d) := by
  unfold importBlock
  rw [run_dependencies_bind, run_texts_of_fixed fun m hm => ?_]
  · refine congrArg (·, d) ?_
    cases remaining with
    | zero => exact List.filterMap_eq_nil_iff.2 fun _ _ => rfl
    | succ remaining =>
      rw [if_neg (Nat.succ_ne_zero remaining), filterMap_parts fun name _ => text_importDecl_ofName name,
        ← List.map_filterMap, List.filterMap_eq_filter]
  · obtain ⟨name, _, place, rfl⟩ := mem_parts hm
    exact first_importDecl _ place

theorem mem_staticImports {imports : List Import} {m : Node}
    (h : m ∈ (imports.zip (n.parts .imports (imports.map .importDecl))).filterMap
      fun (i, n) => if i.isStatic then some n else none) :
    ∃ i ∈ imports, i.isStatic ∧ ∃ place, m = ⟨.importDecl i, place⟩ := by
  obtain ⟨p, hp, hm⟩ := List.mem_filterMap.1 h
  obtain ⟨k, hk, rfl⟩ := List.mem_iff_getElem.1 hp
  have hlt : k < imports.length := by
    rw [List.length_zip] at hk
    omega
  rw [List.getElem_zip, Option.ite_none_right_eq_some] at hm
  refine ⟨imports[k], List.getElem_mem hlt, hm.1, (.imports, k) :: n.place, ?_⟩
  rw [← Option.some.inj hm.2]
  simp only [Node.parts, List.getElem_mapIdx, List.getElem_map]

theorem quiet_staticImports (n : Node) (x : File) : Quiet x.Renders (staticImports n x.imports) := by
  refine quiet_texts fun m hm => ?_
  obtain ⟨i, hi, _, place, rfl⟩ := mem_staticImports hm
  exact .inl (by simp [hi])

theorem run_staticImports (imports : List Import) (d : Dependencies) :
    ((staticImports n imports).run (below f remaining stack n) d).2 = d := by
  unfold staticImports
  rw [run_texts_of_fixed fun m hm => ?_]
  obtain ⟨i, _, _, place, rfl⟩ := mem_staticImports hm
  exact first_importDecl i place

theorem mem_run_staticImports {imports : List Import} {line : String}
    (h : line ∈ ((staticImports n imports).run (below f remaining stack n) d).1) :
    ∃ i ∈ imports, ∃ member, i.member = some member
      ∧ line = "import static " ++ i.type.name ++ "." ++ member ++ ";" := by
  unfold staticImports at h
  rw [run_texts_of_fixed fun m hm => ?fixed] at h
  case fixed =>
    obtain ⟨i, _, _, place, rfl⟩ := mem_staticImports hm
    exact first_importDecl i place
  obtain ⟨m, hm, hline⟩ := List.mem_filterMap.1 h
  obtain ⟨i, hi, hstatic, place, rfl⟩ := mem_staticImports hm
  obtain ⟨member, hmember⟩ := Option.isSome_iff_exists.1 hstatic
  cases remaining with
  | zero => exact nomatch hline
  | succ remaining =>
    rw [text_importDecl, renderImport, hmember] at hline
    exact ⟨i, hi, member, hmember, (Option.some.inj hline).symm⟩

/-! The text of a file. -/

theorem run_comment (x : File) (d : Dependencies) :
    ((comment n x).run (below f remaining stack n) d).2 = d := by
  unfold comment
  cases x.javadoc with
  | none => rfl
  | some j => exact first_javadoc j _

theorem quiet_comment (n : Node) (x : File) : Quiet x.Renders (comment n x) := by
  unfold comment
  cases hj : x.javadoc with
  | none => exact quiet_pure _
  | some j =>
    refine quiet_text? (.inl ?_)
    simp [Node.part, Item.heading, Item.javadoc?, hj]

theorem quiet_classes (n : Node) (x : File) :
    Quiet x.Renders (texts (n.parts .classes (x.classes.map .ofTypeDecl))) :=
  quiet_parts fun _ hd =>
    .inl (Item.holds_iff.2 (.inr (List.mem_append_right _ (List.mem_map_of_mem hd))))

theorem quiet_importBlock (n : Node) (x : File) (d : Dependencies) : Quiet x.Renders
    (texts (n.parts .importBlock
      (d.loaded.map fun name => .importDecl { type := .ofName name }))) :=
  quiet_parts fun name _ => .inr ⟨name, rfl⟩

/-- The body of a file settles the imports: what is written after it changes nothing. -/
theorem run_content (x : File) (d : Dependencies) :
    let r := (content n x).run (below f remaining stack n) d
    r.1.imports = if remaining = 0 then [] else (r.2.loaded.filter r.2.wanted).map importLine := by
  unfold content
  simp only [run_monadBind, run_importBlock, run_staticImports, run_comment, run_pure]

theorem asks_content (x : File) {c : Children} {d : Dependencies} {a : Ask}
    (h : a ∈ (content n x).asks c d) : a.all = false ∧ x.Renders a.node.item := by
  unfold content importBlock at h
  simp only [asks_monadBind, asks_pure, List.append_nil, List.mem_append] at h
  rcases h with h | h | h | h
  · exact (quiet_classes n x).asks h
  · exact (quiet_importBlock n x _).asks (h.resolve_left nofun)
  · exact (quiet_staticImports n x).asks h
  · exact (quiet_comment n x).asks h

theorem chained_content (x : File) : Chained f remaining stack n (content n x) := by
  have quiet {α : Type} {s : Script α} (hs : Quiet x.Renders s) :
      Chained f remaining stack n s :=
    chained_of_quiet hs fun m d hm => chain_visits remaining _ m d (File.ne_file_of_renders hm)
  refine chained_bind (quiet (quiet_classes n x)) fun classes => ?_
  refine chained_bind (fun d => quiet (quiet_importBlock n x d) d) fun imports => ?_
  refine chained_bind (quiet (quiet_staticImports n x)) fun staticImports => ?_
  exact chained_bind (quiet (quiet_comment n x)) fun javadoc => quiet (quiet_pure _)

theorem run_renderFile (x : File) (d : Dependencies) :
    let r := (content n x).run (below f remaining stack n) (x.opened d)
    (renderFile n x).run (below f remaining stack n) d =
        (r.1, { r.2 with package := d.package })
      ∧ (renderFile n x).asks (below f remaining stack n) d =
        (content n x).asks (below f remaining stack n) (x.opened d) := by
  have hchained : Chained f remaining stack n (content n x) := chained_content x
  have hsteps := (hchained (x.opened d)).steps
  have hpackage : ((content n x).run (below f remaining stack n) (x.opened d)).2.package =
      d.package.or x.package? := by
    rw [Dependencies.package_steps hsteps, Dependencies.package_steps (x.steps_opened d),
      Dependencies.enter_eq]
  rw [renderFile_eq]
  simp only [run_monadBind, asks_monadBind, run_opening, run_closing _ x hpackage, run_pure,
    asks_pure, List.nil_append, List.append_nil, and_self]

theorem eq_file_of_kind (h : n.kind = .file) : ∃ x place, n = ⟨.file x, place⟩ := by
  obtain ⟨item, place⟩ := n
  cases item with
  | file x => exact ⟨x, place, rfl⟩
  | value v => exact absurd h (Kind.ne_file_of_isPart (Item.isPart_value v))
  | _ => exact nomatch h

/-! The trace of a file. -/

section

variable (f : Format) (remaining : Nat) (stack : Stack) (x : File) (place : Place)
  (d : Dependencies)

/-- The visits below a file. -/
def body : List Visit :=
  let n : Node := ⟨.file x, place⟩
  visitsOf f remaining stack n ((content n x).asks (below f remaining stack n) (x.opened d))

/-- The dependencies that the imports of a file are written from. -/
def settled : Dependencies :=
  let n : Node := ⟨.file x, place⟩
  ((content n x).run (below f remaining stack n) (x.opened d)).2

def fileText : FileText :=
  let n : Node := ⟨.file x, place⟩
  ((renderFile n x).run (below f remaining stack n) d).1

theorem chain_body : Chain (x.opened d) (body f remaining stack x place d)
    (settled f remaining stack x place d) :=
  chained_content x (x.opened d)

theorem steps_settled :
    Dependencies.Steps (d.enter x.package?) (settled f remaining stack x place d) :=
  (x.steps_opened d).trans (chain_body f remaining stack x place d).steps

theorem imports_fileText :
    (fileText f remaining stack x place d).imports =
      if remaining = 0 then []
      else
        let e := settled f remaining stack x place d
        (e.loaded.filter e.wanted).map importLine := by
  unfold fileText settled
  simp only [run_renderFile, run_content]

theorem mem_staticImports_fileText {line : String}
    (h : line ∈ (fileText f remaining stack x place d).staticImports) :
    ∃ i ∈ x.imports, ∃ member, i.member = some member
      ∧ line = "import static " ++ i.type.name ++ "." ++ member ++ ";" := by
  unfold fileText at h
  simp only [run_renderFile] at h
  unfold content at h
  simp only [run_monadBind] at h
  exact mem_run_staticImports h

theorem script_file (ctx : Context) :
    script ctx ⟨.file x, place⟩ = do
      return some ((← renderFile ⟨.file x, place⟩ x).text ctx.format) := rfl

theorem visits_file (all : Bool) :
    (dispatcher f).visits (remaining + 1) stack all ⟨.file x, place⟩ d =
      ownVisit f remaining stack ⟨.file x, place⟩ d fileTransform
      :: body f remaining stack x place d := by
  rw [visits_of_transform f remaining stack _ d rfl, script_file, asks_monadBind,
    (run_renderFile x d).2, asks_pure, List.append_nil]
  rfl

theorem text_file :
    (((dispatcher f).children (remaining + 1) stack).first ⟨.file x, place⟩ d).1.map (·.text) =
      some ((fileText f remaining stack x place d).text f) := by
  rw [text_first, script_file, run_monadBind]
  rfl

theorem dependencies_file :
    (((dispatcher f).children (remaining + 1) stack).first ⟨.file x, place⟩ d).2 =
      { settled f remaining stack x place d with package := d.package } := by
  rw [dependencies_first, script_file, run_monadBind, (run_renderFile x d).1]
  rfl

end

/-- Rendering any node keeps what steps keep, if it does not depend on the package. -/
theorem first_preserves {P : Dependencies → Prop}
    (steps : ∀ {d e}, P d → Dependencies.Steps d e → P e)
    (package : ∀ {d : Dependencies}, P d → ∀ package, P { d with package })
    (n : Node) (h : P d) : P (((dispatcher f).children remaining stack).first n d).2 := by
  by_cases hfile : n.kind = .file
  · obtain ⟨x, place, rfl⟩ := eq_file_of_kind hfile
    cases remaining with
    | zero => exact h
    | succ remaining =>
      have henter : P (d.enter x.package?) := by
        rw [Dependencies.enter_eq]
        exact package h _
      rw [dependencies_file]
      exact package (steps henter (steps_settled f remaining stack x place d)) d.package
  · exact steps h (chain_visits remaining stack n d hfile).steps

theorem forall_body {P : Visit → Prop} {x : File} {place : Place}
    (own : ∀ remaining stack n d t, n.kind ≠ .file → P (ownVisit f remaining stack n d t))
    {v : Visit} (hv : v ∈ body f remaining stack x place d) : P v := by
  obtain ⟨a, ha, hv⟩ := List.mem_flatMap.1 hv
  obtain ⟨hall, hinner⟩ := asks_content x ha
  rw [hall] at hv
  exact forall_visits own (File.ne_file_of_renders hinner) hv

/-- A reference to a type is written as its name was spelled when it was met. -/
theorem text_ownVisit (remaining : Nat) (stack : Stack) (place : Place) (d : Dependencies)
    (t : TypeRef) (c : Transform) :
    let v := ownVisit f remaining stack ⟨.type t, place⟩ d c
    v.text = some (d.spelling t.name ++ typeTail t (v.asks.flatMap (·.texts))) := by
  unfold ownVisit
  simp only [script_type, run_monadBind, asks_monadBind, run_typeName, asks_typeName,
    List.nil_append, renderTail, run_texts, run_pure, asks_pure, List.append_nil]

/-- The text of a file in its parts, when it is rendered as the root. -/
def fileText? (g : Generator) (x : File) (place : Place) : Option FileText :=
  match g.maxDepth with
  | 0 => none
  | remaining + 1 => some (fileText g.format remaining {} x place g.dependencies)

theorem render_file (ignored : List IgnorePattern) (f : Format) (maxDepth : Nat) (x : File)
    (place : Place) :
    ((session ignored f maxDepth).render ⟨.file x, place⟩).1 =
      (fileText? (session ignored f maxDepth) x place).map (·.text f) := by
  have hclean : session ignored f maxDepth =
      (session ignored f maxDepth).withDependencies { ignored } := rfl
  rw [hclean, render_session]
  cases maxDepth with
  | zero => rfl
  | succ remaining =>
    rw [text_file f remaining {} x place { ignored }]
    rfl

end Java

end Scribe
