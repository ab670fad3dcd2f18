import Scribe.Proofs.Java.File
import Scribe.Proofs.Render.Depth

/-!
What gives no text. A transform that has nothing to write without some child only needs types and
values, and these always give text. So within the depth limit only three things are left out: a
comment without words, an import that is not needed, and a constructor of no declaration.
-/
namespace Scribe

namespace Item

/-- The parts that a declaration may not be written without. -/
def isNeeded : Item → Bool
  | type _ | value _ => true
  | _ => false

end Item

namespace Java

open Script

/-! Scripts that end with a text if the children that they may need give one. -/

def Firm (s : Script (Option α)) : Prop :=
  ∀ c d, (∀ a ∈ s.asks c d, a.node.item.isNeeded → a.texts ≠ []) → (s.run c d).1.isSome

theorem firm_pure (a : α) : Firm (pure (some a)) := fun _ _ _ => rfl

theorem firm_bind {s : Script α} {k : α → Script (Option β)} (hk : ∀ a, Firm (k a)) :
    Firm (s >>= k) := by
  intro c d h
  rw [asks_monadBind] at h
  rw [run_monadBind]
  apply hk
  intro a ha
  exact h a (List.mem_append_right _ ha)

theorem firm_draftPure (a : α) : Firm (pure a : Draft α).run := firm_pure a

theorem firm_lift (s : Script α) : Firm (liftM s : Draft α).run := firm_bind firm_pure

theorem firm_draftBind {x : Draft α} {k : α → Draft β} (hx : Firm x.run)
    (hk : ∀ a, Firm (k a).run) : Firm (x >>= k).run := by
  intro c d h
  rw [OptionT.run_bind, Option.elimM] at h ⊢
  rw [asks_monadBind] at h
  rw [run_monadBind]
  obtain ⟨a, hsome⟩ := Option.isSome_iff_exists.1 <| hx c d fun a ha =>
    h a (List.mem_append_left _ ha)
  rw [hsome] at h ⊢
  apply hk a
  intro b hb
  exact h b (List.mem_append_right _ hb)

theorem firm_child {n : Node} (h : n.item.isNeeded) : Firm (child n).run := by
  intro c d hasks
  have htexts := hasks _ List.mem_cons_self h
  change ((c.first n d).1.map (·.text)).isSome
  rw [← Option.ne_none_iff_isSome]
  intro hnone
  rw [hnone] at htexts
  exact htexts rfl

section

variable (ctx : Context) (n : Node)

theorem firm_renderClass (d : ClassDecl) : Firm (renderClass ctx n d).run := by
  refine firm_draftBind (firm_lift _) fun generics => ?_
  cases d.supertype
  case' none => refine firm_draftBind (firm_draftPure _) fun supertype => ?_
  case' some t =>
    refine firm_draftBind (firm_child rfl) fun text => ?_
    refine firm_draftBind (firm_draftPure _) fun supertype => ?_
  all_goals
    refine firm_draftBind (firm_lift _) fun interfaces => ?_
    refine firm_draftBind (firm_lift _) fun body => ?_
    exact firm_lift _

theorem firm_renderMethod (m : Method) : Firm (renderMethod ctx n m).run := by
  refine firm_draftBind (firm_lift _) fun generics => ?_
  refine firm_draftBind (firm_child rfl) fun type => ?_
  refine firm_draftBind (firm_lift _) fun parameters => ?_
  refine firm_draftBind (firm_lift _) fun throws => ?_
  exact firm_lift _

theorem firm_renderConstructor (c : Constructor) {name : String}
    (h : ctx.stack.enclosing?.bind Node.name? = some name) : Firm (renderConstructor ctx n c).run := by
  unfold renderConstructor
  rw [h]
  refine firm_draftBind (firm_lift _) fun parameters => ?_
  refine firm_draftBind (firm_lift _) fun throws => ?_
  exact firm_lift _

theorem firm_initialValue (lead : String) (value : Option Value) :
    Firm (initialValue n lead value).run := by
  cases value with
  | none => exact firm_draftPure _
  | some v => exact firm_draftBind (firm_child rfl) fun text => firm_draftPure _

theorem firm_renderField (x : Field) : Firm (renderField ctx n x).run := by
  refine firm_draftBind (firm_child rfl) fun type => ?_
  dsimp only
  split
  · exact firm_draftBind (firm_lift _) fun annotations => firm_draftPure _
  · exact firm_draftBind (firm_lift _) fun annotations => firm_draftPure _
  · exact firm_draftBind (firm_initialValue n _ _) fun value => firm_lift _
  · exact firm_draftBind (firm_initialValue n _ _) fun value => firm_lift _

theorem firm_namedValues {pairs : List (String × Node)} (h : ∀ q ∈ pairs, q.2.item.isNeeded) :
    Firm (namedValues pairs).run := by
  induction pairs with
  | nil => exact firm_draftPure _
  | cons q pairs ih =>
    refine firm_draftBind (firm_child (h q (by simp))) fun text => ?_
    exact firm_draftBind (ih fun r hr => h r (by simp [hr])) fun rest => firm_draftPure _

theorem firm_renderAnnotationUse (u : AnnotationUse) : Firm (renderAnnotationUse n u).run := by
  refine firm_draftBind (firm_child rfl) fun type => ?_
  split
  · cases u.value with
    | none => exact firm_draftPure _
    | some v => exact firm_draftBind (firm_lift _) fun list => firm_draftPure _
  · refine firm_draftBind (firm_namedValues fun q hq => ?_) fun pairs => firm_draftPure _
    obtain ⟨v, -, place, hnode⟩ := mem_parts (List.of_mem_zip hq).2
    rw [hnode]
    rfl

theorem firm_renderValue (f : Format) (v : Value) : Firm (renderValue f n v).run := by
  cases v with
  | array items => exact firm_draftBind (firm_lift _) fun list => firm_draftPure _
  | enumConstant type constant => exact firm_draftBind (firm_child rfl) fun type => firm_draftPure _
  | invocation target name arguments =>
    cases target
    case' none => refine firm_draftBind (firm_draftPure _) fun target => ?_
    case' some t =>
      refine firm_draftBind (firm_child rfl) fun type => ?_
      refine firm_draftBind (firm_draftPure _) fun target => ?_
    all_goals exact firm_draftBind (firm_lift _) fun list => firm_draftPure _
  | anonymous body =>
    refine firm_draftBind (firm_child rfl) fun type => ?_
    refine firm_draftBind (firm_lift _) fun arguments => ?_
    exact firm_draftBind (firm_lift _) fun members => firm_draftPure _
  | boolean | number | reference | text | null => exact firm_draftPure _

end

/-! What gives no text. -/

/-- What gives no text even if nothing is cut off: an empty comment, an import of a name that is
ignored or in the current package, and a constructor with no declaration around it. -/
def Excused (stack : Stack) (n : Node) (d : Dependencies) : Prop :=
  match n.item with
  | .javadoc j => j.isEmpty
  | .importDecl i => i.isStatic = false ∧ d.wanted i.type.name = false
  | .constructor _ => ∀ m ∈ stack.nodes, m.isTypeDecl = false
  | _ => False

theorem not_excused_of_isNeeded {stack : Stack} {n : Node} {d : Dependencies}
    (h : n.item.isNeeded) : ¬ Excused stack n d := by
  obtain ⟨item, place⟩ := n
  cases item with
  | type | value => exact id
  | _ => exact nomatch h

/-- All scripts but those of imports, comments and constructors are firm. -/
theorem firm_script (ctx : Context) (n : Node) (hmarkup : n.kind.isMarkup = false)
    (himport : n.kind ≠ .importDecl) (hjavadoc : n.kind ≠ .javadoc)
    (hconstructor : n.kind ≠ .constructor) : Firm (script ctx n) := by
  obtain ⟨item, place⟩ := n
  cases item with
  | importDecl => exact absurd rfl himport
  | javadoc => exact absurd rfl hjavadoc
  | constructor => exact absurd rfl hconstructor
  | document | declaration | tag | tagAttribute | text => exact nomatch hmarkup
  | type t =>
    rw [script_type]
    exact firm_bind fun name => firm_bind fun arguments => firm_pure _
  | classDecl d => exact firm_renderClass ctx _ d
  | method m => exact firm_renderMethod ctx _ m
  | field x => exact firm_renderField ctx _ x
  | annotationUse u => exact firm_renderAnnotationUse _ u
  | value v =>
    rw [script_value]
    exact firm_renderValue _ ctx.format v
  | file | interfaceDecl | enumDecl | annotationDecl | enumConstant | generic =>
    exact firm_bind fun text => firm_pure _
  | javadocTag | initializer => exact firm_pure _

/-! The binding. -/

variable {f : Format} {remaining : Nat} {stack : Stack} {n : Node} {d : Dependencies}

theorem asks_file {x : File} {place : Place} {a : Ask}
    (ha : a ∈ (script ⟨f, stack.push ⟨.file x, place⟩⟩ ⟨.file x, place⟩).asks
      (below f remaining stack ⟨.file x, place⟩) d) : a.all = false ∧ x.Renders a.node.item := by
  rw [script_file, asks_monadBind, (run_renderFile x d).2, asks_pure, List.append_nil] at ha
  exact asks_content x ha

theorem asks_lower (h : n.kind.isMarkup = false) {a : Ask}
    (ha : a ∈ (script ⟨f, stack.push n⟩ n).asks (below f remaining stack n) d) :
    a.all = false ∧ a.node.kind.isMarkup = false ∧ a.node.item.rank < n.item.rank := by
  have hholds (hall : a.all = false) (hm : n.item.Holds a.node.item) :
      a.all = false ∧ a.node.kind.isMarkup = false ∧ a.node.item.rank < n.item.rank :=
    ⟨hall, (Item.isMarkup_of_holds hm).trans h, Item.rank_lt_of_holds hm⟩
  by_cases hfile : n.kind = .file
  · obtain ⟨x, place, rfl⟩ := eq_file_of_kind hfile
    obtain ⟨hall, hm | ⟨name, heq⟩⟩ := asks_file ha
    · exact hholds hall hm
    · rw [Node.kind, heq]
      refine ⟨hall, rfl, ?_⟩
      simp only [Item.rank, Item.file.sizeOf_spec]
      omega
  · obtain ⟨hall, hm⟩ := asks_script hfile ha
    exact hholds hall hm

theorem renderImport_eq_none_iff (i : Import) (c : Children) :
    ((renderImport i).run c d).1 = none ↔ i.isStatic = false ∧ d.wanted i.type.name = false := by
  unfold renderImport Import.isStatic Dependencies.wanted
  cases i.member with
  | some member => simp
  | none =>
    rw [run_dependencies_bind, run_ite]
    cases d.ignores i.type.name || d.isSamePackage i.type.name <;> simp

theorem renderJavadoc_eq_none_iff (j : Javadoc) (c : Children) :
    ((renderJavadoc f n j).run c d).1 = none ↔ j.isEmpty := by
  unfold renderJavadoc
  rw [run_ite]
  split
  · next hempty => exact iff_of_true rfl hempty
  · next hempty =>
    rw [run_monadBind]
    exact iff_of_false nofun hempty

theorem isSome_name? {m : Node} (h : m.isTypeDecl) : m.name?.isSome := by
  obtain ⟨item, place⟩ := m
  cases item with
  | classDecl | interfaceDecl | enumDecl | annotationDecl => rfl
  | value v => cases v <;> exact nomatch h
  | _ => exact nomatch h

theorem enclosing?_push (stack : Stack) (n : Node) :
    (stack.push n).enclosing? = stack.nodes.find? Node.isTypeDecl := rfl

theorem renderConstructor_eq_none_iff (c : Constructor)
    (hfirm : ∀ name, (stack.push n).enclosing?.bind Node.name? = some name →
      ((renderConstructor ⟨f, stack.push n⟩ n c).run.run (below f remaining stack n) d).1 ≠ none) :
    ((renderConstructor ⟨f, stack.push n⟩ n c).run.run (below f remaining stack n) d).1 = none ↔
      ∀ m ∈ stack.nodes, m.isTypeDecl = false := by
  cases henclosing : stack.nodes.find? Node.isTypeDecl with
  | none =>
    refine iff_of_true ?_ fun m hm => by simpa using List.find?_eq_none.1 henclosing m hm
    unfold renderConstructor
    dsimp only
    rw [enclosing?_push, henclosing]
    rfl
  | some m =>
    have hdecl := List.find?_some henclosing
    obtain ⟨name, hname⟩ := Option.isSome_iff_exists.1 (isSome_name? hdecl)
    refine iff_of_false (hfirm name ?_) fun hall => ?_
    · rw [enclosing?_push, henclosing]
      exact hname
    · rw [hall m (List.mem_of_find?_eq_some henclosing)] at hdecl
      exact nomatch hdecl

theorem run_eq_none_iff (h : n.kind.isMarkup = false)
    (hasks : ∀ a ∈ (script ⟨f, stack.push n⟩ n).asks (below f remaining stack n) d,
      a.texts = [] ↔ Excused (stack.push n) a.node a.before) :
    ((script ⟨f, stack.push n⟩ n).run (below f remaining stack n) d).1 = none ↔
      Excused stack n d := by
  have hfirm {s : Script (Option String)} (heq : script ⟨f, stack.push n⟩ n = s) (hs : Firm s) :
      (s.run (below f remaining stack n) d).1 ≠ none := by
    subst heq
    rw [Option.ne_none_iff_isSome]
    apply hs
    intro a ha hneeded hnil
    exact not_excused_of_isNeeded hneeded ((hasks a ha).1 hnil)
  obtain ⟨item, place⟩ := n
  cases item with
  | importDecl i => exact renderImport_eq_none_iff i _
  | javadoc j =>
    rw [script_javadoc]
    exact renderJavadoc_eq_none_iff j _
  | constructor c =>
    exact renderConstructor_eq_none_iff c fun name hname =>
      hfirm rfl (firm_renderConstructor _ _ c hname)
  | value v =>
    refine iff_of_false (hfirm rfl (firm_script _ _ h ?_ ?_ ?_)) id <;> cases v <;> nofun
  | document | declaration | tag | tagAttribute | text => exact nomatch h
  | _ => exact iff_of_false (hfirm rfl (firm_script _ _ h nofun nofun nofun)) id

theorem complete : binding.Complete (·.kind.isMarkup = false) Item.rank Excused where
  asks h ha := asks_lower h ha
  text h hasks := run_eq_none_iff h hasks

end Java

end Scribe
