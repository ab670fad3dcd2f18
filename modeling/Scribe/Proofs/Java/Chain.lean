import Scribe.Proofs.Java.Owners
import Scribe.Proofs.Java.Quiet

/-!
The course of the dependencies while a node that is no file is rendered: they change only where a
type is referred to, before anything below that reference is rendered. So the trace of a node is a
chain, in which each visit begins where the references before it have led.
-/
namespace Scribe

namespace Visit

def reference? (v : Visit) : Option String :=
  match v.node.item with
  | .type t => some t.name
  | _ => none

/-- What a visit itself does to the dependencies. -/
def effect (v : Visit) (d : Dependencies) : Dependencies := (v.reference?.map d.refer).getD d

theorem steps_effect (v : Visit) (d : Dependencies) : Dependencies.Steps d (v.effect d) := by
  unfold effect
  cases v.reference? with
  | none => exact .refl
  | some name => exact d.steps_refer name

end Visit

/-- Visits of which each begins where the effects of those before it have led. -/
inductive Chain : Dependencies → List Visit → Dependencies → Prop
  | nil (d : Dependencies) : Chain d [] d
  | cons {d e : Dependencies} {v : Visit} {vs : List Visit} (start : v.before = d)
    (rest : Chain (v.effect d) vs e) : Chain d (v :: vs) e

namespace Chain

variable {d e e' : Dependencies} {vs ws : List Visit} {v : Visit}

theorem append (h : Chain d vs e) (h' : Chain e ws e') : Chain d (vs ++ ws) e' := by
  induction h with
  | nil => exact h'
  | cons start _ ih => exact .cons start (ih h')

theorem eq_foldl (h : Chain d vs e) : e = (vs.filterMap (·.reference?)).foldl .refer d := by
  induction h with
  | nil => rfl
  | @cons d _ v vs _ _ ih =>
    rw [ih, Visit.effect, List.filterMap_cons]
    cases v.reference? <;> rfl

theorem steps (h : Chain d vs e) : Dependencies.Steps d e := by
  induction h with
  | nil => exact .refl
  | @cons d _ v _ _ _ ih => exact (v.steps_effect d).trans ih

theorem split (h : Chain d (vs ++ ws) e) : ∃ m, Chain d vs m ∧ Chain m ws e := by
  induction vs generalizing d with
  | nil => exact ⟨d, .nil d, h⟩
  | cons v vs ih =>
    cases h with
    | cons start rest =>
      obtain ⟨m, hvs, hws⟩ := ih rest
      exact ⟨m, .cons start hvs, hws⟩

theorem split_cons (h : Chain d (vs ++ v :: ws) e) :
    Chain d vs v.before ∧ Chain (v.effect v.before) ws e := by
  obtain ⟨m, hvs, hws⟩ := h.split
  cases hws with
  | cons start rest =>
    subst start
    exact ⟨hvs, rest⟩

theorem steps_before (h : Chain d vs e) (hv : v ∈ vs) :
    Dependencies.Steps d v.before ∧ Dependencies.Steps (v.effect v.before) e := by
  obtain ⟨pre, post, rfl⟩ := List.append_of_mem hv
  obtain ⟨hpre, hpost⟩ := h.split_cons
  exact ⟨hpre.steps, hpost.steps⟩

end Chain

namespace Java

open Script

theorem run_typeName (c : Children) (name : String) (d : Dependencies) :
    (typeName name).run c d = (d.spelling name, d.refer name) := by
  unfold typeName Dependencies.spelling Dependencies.refer
  rw [run_dependencies_bind, run_ite, run_ite]
  split
  · rfl
  · split <;> rfl

theorem asks_typeName (c : Children) (name : String) (d : Dependencies) :
    (typeName name).asks c d = [] := by
  unfold typeName
  rw [asks_dependencies_bind, asks_ite, asks_ite]
  split
  · rfl
  · split <;> rfl

/-- What follows the name of a type: its arguments, from the texts that they gave, and brackets. -/
def typeTail (t : TypeRef) (arguments : List String) : String :=
  (if t.arguments.isEmpty then "" else "<" ++ ", ".intercalate arguments ++ ">")
    ++ Text.times t.dimensions.toNat "[]"

def renderTail (n : Node) (t : TypeRef) (name : String) : Script (Option String) := do
  let arguments ← texts (n.parts .arguments (t.arguments.map .ofArgument))
  return some (name ++ typeTail t arguments)

theorem quiet_renderTail (t : TypeRef) (place : Place) (name : String) :
    Quiet (Item.type t).Holds (renderTail ⟨.type t, place⟩ t name) :=
  quiet_bind (quiet_parts fun _ ha => Item.holds_iff.2 (.inr (List.mem_map_of_mem ha))) fun _ =>
    quiet_pure _

theorem script_type (ctx : Context) (t : TypeRef) (place : Place) :
    script ctx ⟨.type t, place⟩ =
      typeName t.name >>= fun name => renderTail ⟨.type t, place⟩ t name := by
  have hscript : script ctx ⟨.type t, place⟩ = some <$> renderType ⟨.type t, place⟩ t := rfl
  rw [hscript]
  unfold renderType renderTail typeTail commaList
  simp only [map_eq_pure_bind, LawfulMonad.bind_assoc]
  congr 1
  funext name
  cases hargs : t.arguments with
  | nil =>
    simp only [List.isEmpty_nil, ↓reduceIte, pure_bind, List.map_nil, Node.parts, List.mapIdx_nil,
      String.append_assoc]
    rfl
  | cons a as =>
    simp only [List.isEmpty_cons, Bool.false_eq_true, ↓reduceIte, LawfulMonad.bind_assoc, pure_bind,
      String.append_assoc]

theorem script_javadoc (ctx : Context) (j : Javadoc) (place : Place) :
    script ctx ⟨.javadoc j, place⟩ = renderJavadoc ctx.format ⟨.javadoc j, place⟩ j := by
  simp only [script, Node.kind, Item.kind, transform?, javadocTransform]

theorem script_value (ctx : Context) (v : Value) (place : Place) :
    script ctx ⟨.value v, place⟩ = (renderValue ctx.format ⟨.value v, place⟩ v).run := by
  cases v <;> rfl

/-- Apart from files, imports and types, all scripts are quiet. -/
theorem quiet_script (ctx : Context) (n : Node) (hfile : n.kind ≠ .file)
    (himport : n.kind ≠ .importDecl) (htype : n.kind ≠ .type) :
    Quiet n.item.Holds (script ctx n) := by
  obtain ⟨item, place⟩ := n
  cases item with
  | file => exact absurd rfl hfile
  | importDecl => exact absurd rfl himport
  | type => exact absurd rfl htype
  | classDecl d => exact quiet_renderClass ctx place d
  | interfaceDecl d => exact quiet_bind (quiet_renderInterface ctx place d) fun _ => quiet_pure _
  | enumDecl d => exact quiet_bind (quiet_renderEnum ctx place d) fun _ => quiet_pure _
  | annotationDecl d =>
    exact quiet_bind (quiet_renderAnnotationDecl ctx place d) fun _ => quiet_pure _
  | enumConstant c => exact quiet_bind (quiet_renderEnumConstant ctx place c) fun _ => quiet_pure _
  | method m => exact quiet_renderMethod ctx place m
  | constructor c => exact quiet_renderConstructor ctx place c
  | field x => exact quiet_renderField ctx place x
  | generic g => exact quiet_bind (quiet_renderGeneric place g) fun _ => quiet_pure _
  | javadoc j =>
    rw [script_javadoc]
    exact quiet_renderJavadoc place ctx.format j
  | javadocTag t => exact quiet_pure _
  | annotationUse u => exact quiet_renderAnnotationUse place u
  | initializer i => exact quiet_pure _
  | value v =>
    rw [script_value]
    exact quiet_renderValue place ctx.format v
  | document | declaration | tag | tagAttribute | text => exact quiet_pure _

theorem run_renderImport (c : Children) (i : Import) (d : Dependencies) :
    ((renderImport i).run c d).2 = d ∧ (renderImport i).asks c d = [] := by
  unfold renderImport
  cases i.member with
  | some member => exact ⟨rfl, rfl⟩
  | none =>
    rw [run_dependencies_bind, asks_dependencies_bind, run_ite, asks_ite]
    split <;> exact ⟨rfl, rfl⟩

theorem run_importDecl (ctx : Context) (i : Import) (place : Place) (c : Children)
    (d : Dependencies) : ((script ctx ⟨.importDecl i, place⟩).run c d).2 = d
      ∧ (script ctx ⟨.importDecl i, place⟩).asks c d = [] :=
  run_renderImport c i d

variable {f : Format} {remaining : Nat} {stack : Stack} {n : Node} {d : Dependencies}

theorem asks_script {ctx : Context} {n : Node} (h : n.kind ≠ .file) {c : Children}
    {d : Dependencies} {a : Ask} (ha : a ∈ (script ctx n).asks c d) :
    a.all = false ∧ n.item.Holds a.node.item := by
  obtain ⟨item, place⟩ := n
  cases item with
  | type t =>
    rw [script_type, asks_monadBind, asks_typeName] at ha
    exact (quiet_renderTail t place _).asks ha
  | importDecl i =>
    rw [(run_importDecl ctx i place c d).2] at ha
    exact nomatch ha
  | value v => exact (quiet_script ctx _ h (by cases v <;> nofun) (by cases v <;> nofun)).asks ha
  | _ => exact (quiet_script ctx _ h nofun nofun).asks ha

/-- What holds of the run of every transform on a node that is no file holds of all runs below such
a node. -/
theorem forall_visits {P : Visit → Prop}
    (own : ∀ remaining stack n d t, n.kind ≠ .file → P (ownVisit f remaining stack n d t))
    (h : n.kind ≠ .file) {v : Visit}
    (hv : v ∈ (dispatcher f).visits remaining stack false n d) : P v := by
  induction remaining generalizing stack n d with
  | zero => exact nomatch hv
  | succ remaining ih =>
    rcases (Binding.mem_visits_succ (b := binding)).1 hv with ⟨t, -, rfl⟩ | ⟨a, ha, hv⟩
    · exact own remaining stack n d t h
    · obtain ⟨hall, hinner⟩ := asks_script h ha
      rw [hall] at hv
      exact ih (Item.ne_file_of_holds hinner) hv

/-- A script whose children make a chain. -/
def Chained (f : Format) (remaining : Nat) (stack : Stack) (n : Node) (s : Script α) : Prop :=
  ∀ d, Chain d (visitsOf f remaining stack n (s.asks (below f remaining stack n) d))
    (s.run (below f remaining stack n) d).2

theorem chained_bind {s : Script α} {k : α → Script β} (hs : Chained f remaining stack n s)
    (hk : ∀ a, Chained f remaining stack n (k a)) : Chained f remaining stack n (s >>= k) := by
  intro d
  rw [asks_monadBind, run_monadBind]
  unfold visitsOf
  rw [List.flatMap_append]
  exact (hs d).append (hk _ _)

theorem chained_of_quiet {p : Item → Prop} {s : Script α} (hs : Quiet p s)
    (hc : ∀ m d, p m.item →
      Chain d ((dispatcher f).visits remaining (stack.push n) false m d)
        ((below f remaining stack n).first m d).2) : Chained f remaining stack n s := by
  induction hs with
  | done a => exact fun d => .nil d
  | first m next inner _ _ ih =>
    intro d
    simp only [asks, run, visitsOf, List.flatMap_cons]
    exact (hc m d inner).append (ih _ _)

theorem effect_ownVisit (t : Transform) (h : n.kind ≠ .type) :
    (ownVisit f remaining stack n d t).effect d = d := by
  unfold Visit.effect Visit.reference?
  split
  · next u hitem => exact absurd (congrArg Item.kind hitem) h
  · rfl

theorem chain_visits (remaining : Nat) (stack : Stack) (n : Node) (d : Dependencies)
    (h : n.kind ≠ .file) :
    Chain d ((dispatcher f).visits remaining stack false n d)
      (((dispatcher f).children remaining stack).first n d).2 := by
  induction remaining generalizing stack n d with
  | zero => exact .nil d
  | succ remaining ih =>
    rw [dependencies_first]
    have below {s : Script (Option String)} (hs : Quiet n.item.Holds s) :
        Chained f remaining stack n s :=
      chained_of_quiet hs fun m d hm => ih _ m d (Item.ne_file_of_holds hm)
    cases ht : transform? n.kind with
    | none =>
      rw [visits_of_none f remaining stack n d ht, script, ht]
      exact .nil d
    | some t =>
      rw [visits_of_transform f remaining stack n d ht]
      refine .cons rfl ?_
      obtain ⟨item, place⟩ := n
      cases item with
      | type t =>
        rw [script_type, run_monadBind, asks_monadBind, run_typeName, asks_typeName]
        exact below (quiet_renderTail t place _) _
      | importDecl i =>
        obtain ⟨hrun, hasks⟩ := run_importDecl ⟨f, stack.push ⟨.importDecl i, place⟩⟩ i place
          (Java.below f remaining stack ⟨.importDecl i, place⟩) d
        rw [hrun, hasks]
        exact .nil d
      | value v =>
        rw [effect_ownVisit t (by cases v <;> nofun)]
        exact below (quiet_script _ _ h (by cases v <;> nofun) (by cases v <;> nofun)) d
      | _ => exact below (quiet_script _ _ h nofun nofun) d

end Java

end Scribe
