import Scribe.Proofs.Java.File
import Scribe.Proofs.Render.Handle

/-!
What a node can see of the nodes around it. A transform looks no further than the direct parent, but
for a constructor, which takes its name from the nearest type declaration; and where that is the
parent, the rest of the stack makes no difference to anything that is rendered.
-/
namespace Scribe

theorem Item.family_of_holds_constructor {i m : Item} (h : i.Holds m)
    (hm : m.kind = .constructor) : i.kind.family = some .typeDecl := by
  have hvalue (v : Value) : v.kind ≠ .constructor := by cases v <;> simp [Value.kind]
  have hargument (a : TypeArgument) : (ofArgument a).kind ≠ .constructor := by
    cases a <;> simp [ofArgument, kind]
  have helement (e : Element) : (ofElement e).kind ≠ .constructor := by
    cases e <;> simp [ofElement, kind]
  have hdecl (d : TypeDecl) : (ofTypeDecl d).kind ≠ .constructor := by
    cases d <;> simp [ofTypeDecl, kind]
  rcases holds_iff.1 h with h | h
  · simp only [heading, List.mem_append, List.mem_map] at h
    rcases h with ⟨j, -, rfl⟩ | ⟨u, -, rfl⟩ <;> simp [kind] at hm
  · cases i with
    | classDecl | interfaceDecl | enumDecl | annotationDecl => rfl
    | value v => cases v <;> grind [contents, valueContents, kind]
    | _ => grind [contents, kind]

namespace Java

open Script

/-! What a script is made from. -/

theorem enclosing?_of_parent {p : Node} (h : p.isTypeDecl) (n : Node) (rest : List Node) :
    Stack.enclosing? ⟨n :: p :: rest⟩ = some p := by
  rw [Stack.enclosing?, List.tail_cons, List.find?_cons, h]

theorem script_of_parent {f : Format} {p n : Node} (rest rest' : List Node)
    (h : n.kind = .constructor → p.isTypeDecl) :
    script ⟨f, ⟨n :: p :: rest⟩⟩ n = script ⟨f, ⟨n :: p :: rest'⟩⟩ n := by
  obtain ⟨item, place⟩ := n
  cases item with
  | constructor c =>
    change OptionT.run (renderConstructor _ _ c) = OptionT.run (renderConstructor _ _ c)
    unfold renderConstructor
    rw [enclosing?_of_parent (h rfl), enclosing?_of_parent (h rfl)]
    rfl
  | value v => cases v <;> rfl
  | _ => rfl

/-! What is run is the same where the children come to the same. -/

section

variable {c c' : Children}

theorem run_bind_congr {s : Script α} {k : α → Script β} (hs : s.run c' = s.run c)
    (hk : ∀ a, (k a).run c' = (k a).run c) : (s >>= k).run c' = (s >>= k).run c := by
  funext d
  rw [run_monadBind, run_monadBind, hs, hk]

theorem run_renderFile_congr {x : File} (n : Node)
    (h : ∀ m : Node, x.Renders m.item → (text? m).run c' = (text? m).run c) :
    (renderFile n x).run c' = (renderFile n x).run c := by
  have hopening : (opening x).run c' = (opening x).run c :=
    funext fun d => (run_opening c' x d).1.trans (run_opening c x d).1.symm
  have himports : (importBlock n).run c' = (importBlock n).run c := by
    funext d
    exact congrFun ((quiet_importBlock n x d).run_congr h) d
  have hclosing (ownsPackage : Bool) :
      (closing x ownsPackage).run c' = (closing x ownsPackage).run c := by
    cases ownsPackage <;> rfl
  rw [renderFile_eq]
  refine run_bind_congr hopening fun ownsPackage => ?_
  refine run_bind_congr ?content fun text => run_bind_congr (hclosing _) fun _ => rfl
  refine run_bind_congr ((quiet_classes n x).run_congr h) fun classes => ?_
  refine run_bind_congr himports fun imports => ?_
  refine run_bind_congr ((quiet_staticImports n x).run_congr h) fun staticImports => ?_
  exact run_bind_congr ((quiet_comment n x).run_congr h) fun javadoc => rfl

/-- What a file renders, and what any other node holds, is all that its script depends on. -/
theorem run_script_congr {ctx : Context} {n : Node}
    (hheld : ∀ m : Node, n.item.Holds m.item → (text? m).run c' = (text? m).run c)
    (himport : ∀ i place, (text? ⟨.importDecl i, place⟩).run c' =
      (text? ⟨.importDecl i, place⟩).run c) :
    (script ctx n).run c' = (script ctx n).run c := by
  have hquiet {s : Script (Option String)} (hs : Quiet n.item.Holds s) : s.run c' = s.run c :=
    hs.run_congr hheld
  obtain ⟨item, place⟩ := n
  cases item with
  | file x =>
    refine run_bind_congr (run_renderFile_congr _ fun m hm => ?_) fun text => rfl
    rcases hm with hm | ⟨name, hm⟩
    · exact hheld m hm
    · obtain ⟨item, place⟩ := m
      obtain rfl : item = _ := hm
      exact himport _ place
  -- An import and the name of a type are spelled by what has been claimed, and nothing is rendered.
  | importDecl i =>
    change (renderImport i).run c' = (renderImport i).run c
    unfold renderImport
    cases i.member with
    | some member => rfl
    | none =>
      funext d
      rw [run_dependencies_bind, run_dependencies_bind, run_ite, run_ite]
      rfl
  | type t =>
    rw [script_type]
    refine run_bind_congr ?name fun name => hquiet (quiet_renderTail t place name)
    exact funext fun d => (run_typeName c' t.name d).trans (run_typeName c t.name d).symm
  | value v =>
    apply hquiet
    apply quiet_script <;> cases v <;> nofun
  | _ => exact hquiet (quiet_script _ _ nofun nofun nofun)

end

/-! Every level of a rendering. -/

theorem text?_of_parent (f : Format) (remaining : Nat) {p n : Node} (rest rest' : List Node)
    (h : n.kind = .constructor → p.isTypeDecl) :
    (text? n).run ((dispatcher f).children remaining ⟨p :: rest⟩) =
      (text? n).run ((dispatcher f).children remaining ⟨p :: rest'⟩) := by
  -- one level further in, the node is the parent, and `p` belongs to what may differ
  induction remaining generalizing p n rest rest' with
  | zero => rfl
  | succ remaining ih =>
    have hbelow : (script ⟨f, ⟨n :: p :: rest⟩⟩ n).run
          ((dispatcher f).children remaining ⟨n :: p :: rest⟩) =
        (script ⟨f, ⟨n :: p :: rest'⟩⟩ n).run
          ((dispatcher f).children remaining ⟨n :: p :: rest'⟩) := by
      rw [script_of_parent rest rest' h]
      apply run_script_congr
      · intro m hm
        refine ih (p :: rest) (p :: rest') fun hconstructor => ?_
        exact beq_iff_eq.2 (Item.family_of_holds_constructor hm hconstructor)
      · exact fun i place => ih (p :: rest) (p :: rest') nofun
    funext d
    rw [run_text?, run_text?, text_first, text_first, dependencies_first, dependencies_first]
    exact congrArg (fun run => ((run d).1, (run d).2)) hbelow

/-- Under two stacks that are equally deep and have the same top, a node comes to the same text and
leaves the session the same, whatever else is on them; a constructor is to stand directly in a type
declaration. -/
theorem render_of_parent (d : Dependencies) (f : Format) (maxDepth : Nat) (p n : Node)
    (rest rest' : List Node) (hdepth : rest.length = rest'.length)
    (h : n.kind = .constructor → p.isTypeDecl) :
    (Handle.mk (binding.session d f maxDepth) ⟨p :: rest⟩).render n =
      (Handle.mk (binding.session d f maxDepth) ⟨p :: rest'⟩).render n := by
  have hrender (around : List Node) :
      (Handle.mk (binding.session d f maxDepth) ⟨p :: around⟩).render n =
        ((text? n).run ((dispatcher f).children (maxDepth - (around.length + 1)) ⟨p :: around⟩)
          d).map id fun e => binding.session e f maxDepth := rfl
  rw [hrender, hrender, hdepth, text?_of_parent f _ rest rest' h]

theorem render_of_parent_gauge :
    let gauge : Node := ⟨.classDecl { name := "Gauge", constructors := [{}] }, []⟩
    let panel : Node := ⟨.classDecl { name := "Panel" }, []⟩
    let metered : Node := ⟨.interfaceDecl { name := "Metered" }, []⟩
    let n : Node := gauge.part .constructors (.constructor {})
    let render (around : Node) := (Handle.mk (binding.session {} {} 3) ⟨[gauge, around]⟩).render n
    [panel].length = [metered].length ∧ (n.kind = .constructor → gauge.isTypeDecl)
      ∧ render panel = render metered ∧ (render panel).1 = some "Gauge() \x7b\x7d" := by
  intro gauge panel metered n render
  have hdecl : n.kind = .constructor → gauge.isTypeDecl := fun _ => rfl
  have hdepth : [panel].length = [metered].length := rfl
  exact ⟨hdepth, hdecl, render_of_parent {} {} 3 gauge n [panel] [metered] hdepth hdecl,
    by decide +kernel⟩

end Java

end Scribe
