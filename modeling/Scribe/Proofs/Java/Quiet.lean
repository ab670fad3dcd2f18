import Scribe.Proofs.Java.Session
import Scribe.Proofs.Render.Quiet

/-!
What the transforms do. Apart from files and imports, a script of the Java binding leaves the
dependencies alone: it only asks for children, each of which stands directly inside its node. A
reference to a type first settles how its name is written and is quiet from then on.
-/
namespace Scribe.Java

open Script

variable {p : Item → Prop}

/-! Drafts: scripts that may end early. -/

theorem quiet_draftBind {x : Draft α} {f : α → Draft β} (hx : Quiet p x.run)
    (hf : ∀ a, Quiet p (f a).run) : Quiet p (x >>= f).run := by
  rw [OptionT.run_bind]
  refine quiet_bind hx fun a => ?_
  cases a with
  | none => exact .done _
  | some a => exact hf a

theorem quiet_draftPure (a : α) : Quiet p (pure a : Draft α).run := .done _

theorem quiet_lift {s : Script α} (h : Quiet p s) : Quiet p (liftM s : Draft α).run :=
  quiet_bind h fun _ => .done _

theorem quiet_child {n : Node} (h : p n.item) : Quiet p (child n).run := quiet_text? h

/-! Fragments. -/

section

variable {n : Node} {slot : Slot}

theorem quiet_commaList {as : List α} {item : α → Item} (h : ∀ a ∈ as, p (item a)) :
    Quiet p (commaList (n.parts slot (as.map item))) :=
  quiet_bind (quiet_parts h) fun _ => quiet_pure _

theorem quiet_typeList {ts : List TypeRef} (h : ∀ t ∈ ts, p (.type t)) :
    Quiet p (typeList n slot ts) := quiet_commaList h

theorem quiet_argumentList {vs : List Value} (h : ∀ v ∈ vs, p (.value v)) :
    Quiet p (argumentList n slot vs) := quiet_commaList h

theorem quiet_genericList {gs : List Generic} (h : ∀ g ∈ gs, p (.generic g)) :
    Quiet p (genericList n gs) := by
  refine quiet_bind (quiet_parts h) fun texts => ?_
  cases texts <;> exact quiet_pure _

theorem quiet_preamble (h : ∀ i ∈ n.item.heading, p i) : Quiet p (preamble n) := by
  have hjavadoc (j : Javadoc) (hj : n.item.javadoc? = some j) : p (.javadoc j) :=
    h _ (by simp [Item.heading, hj])
  have hannotations (us : List AnnotationUse) (hus : n.item.annotations? = some us) :
      ∀ u ∈ us, p (.annotationUse u) := fun u hu => h _ (by simp [Item.heading, hus, hu])
  unfold preamble
  cases hj : n.item.javadoc?
  case' none => refine quiet_bind (quiet_pure _) fun javadoc => ?_
  case' some j =>
    refine quiet_bind (quiet_texts fun m hm => ?_) fun javadoc => ?_
    · obtain rfl := List.mem_singleton.1 hm
      exact hjavadoc j hj
  all_goals
    cases hus : n.item.annotations? with
    | none => exact quiet_bind (quiet_pure _) fun annotations => quiet_pure _
    | some us =>
      exact quiet_bind (quiet_parts (hannotations us hus)) fun annotations => quiet_pure _

theorem quiet_declaration {f : Format} {signature : String} (h : ∀ i ∈ n.item.heading, p i) :
    Quiet p (declaration f n signature) :=
  quiet_bind (quiet_preamble h) fun _ => quiet_pure _

def Members.items (m : Members) : List Item :=
  m.fields.map .field ++ m.initializers.map .initializer ++ m.constructors.map .constructor
    ++ m.methods.map .method ++ m.classes.map .ofTypeDecl

theorem quiet_members {f : Format} {m : Members} (h : ∀ i ∈ m.items, p i) :
    Quiet p (m.render f n) := by
  simp only [Members.items, List.forall_mem_append, List.forall_mem_map] at h
  obtain ⟨⟨⟨⟨hfields, hinitializers⟩, hconstructors⟩, hmethods⟩, hclasses⟩ := h
  refine quiet_bind (quiet_parts hfields) fun fields => ?_
  refine quiet_bind (quiet_parts hinitializers) fun initializers => ?_
  refine quiet_bind (quiet_parts hconstructors) fun constructors => ?_
  refine quiet_bind (quiet_parts hmethods) fun methods => ?_
  exact quiet_bind (quiet_parts hclasses) fun classes => quiet_pure _

theorem quiet_typeClause {keyword : String} {ts : List TypeRef} (h : ∀ t ∈ ts, p (.type t)) :
    Quiet p (typeClause n slot keyword ts) := by
  unfold typeClause
  split
  · exact quiet_pure _
  · exact quiet_bind (quiet_typeList h) fun _ => quiet_pure _

end

/-! Type declarations. -/

section

variable (ctx : Context) (place : Place)

theorem quiet_renderClass (d : ClassDecl) :
    Quiet (Item.classDecl d).Holds (renderClass ctx ⟨.classDecl d, place⟩ d).run := by
  refine quiet_draftBind (quiet_lift (quiet_genericList (by simp +contextual))) fun generics => ?_
  cases hsupertype : d.supertype
  case' none => refine quiet_draftBind (quiet_draftPure _) fun supertype => ?_
  case' some t =>
    refine quiet_draftBind (quiet_child (by simp [Node.part, hsupertype])) fun text => ?_
    refine quiet_draftBind (quiet_draftPure _) fun supertype => ?_
  all_goals
    refine quiet_draftBind (quiet_lift (quiet_typeClause (by simp +contextual))) fun _ => ?_
    refine quiet_draftBind (quiet_lift (quiet_members ?_)) fun body => ?_
    · simp +contextual [Members.items]
    · exact quiet_lift (quiet_declaration (by simp +contextual))

theorem quiet_renderInterface (d : InterfaceDecl) :
    Quiet (Item.interfaceDecl d).Holds (renderInterface ctx ⟨.interfaceDecl d, place⟩ d) := by
  refine quiet_bind (quiet_genericList (by simp +contextual)) fun generics => ?_
  refine quiet_bind (quiet_typeClause (by simp +contextual)) fun interfaces => ?_
  refine quiet_bind (quiet_members ?_) fun body => ?_
  · simp +contextual [Members.items]
  · exact quiet_declaration (by simp +contextual)

theorem quiet_renderEnum (d : EnumDecl) :
    Quiet (Item.enumDecl d).Holds (renderEnum ctx ⟨.enumDecl d, place⟩ d) := by
  refine quiet_bind (quiet_typeClause (by simp +contextual)) fun interfaces => ?_
  refine quiet_bind (quiet_parts (by simp +contextual)) fun constants => ?_
  refine quiet_bind (quiet_members ?_) fun members => ?_
  · simp +contextual [Members.items]
  · exact quiet_declaration (by simp +contextual)

theorem quiet_renderAnnotationDecl (d : AnnotationDecl) :
    Quiet (Item.annotationDecl d).Holds
      (renderAnnotationDecl ctx ⟨.annotationDecl d, place⟩ d) := by
  refine quiet_bind (quiet_parts (by simp +contextual)) fun elements => ?_
  exact quiet_declaration (by simp +contextual)

theorem quiet_renderEnumConstant (c : EnumConstant) :
    Quiet (Item.enumConstant c).Holds (renderEnumConstant ctx ⟨.enumConstant c, place⟩ c) := by
  unfold renderEnumConstant
  dsimp only
  split
  case' isTrue => refine quiet_bind (quiet_pure _) fun arguments => ?_
  case' isFalse =>
    refine quiet_bind (quiet_argumentList (by simp +contextual)) fun list => ?_
    refine quiet_bind (quiet_pure _) fun arguments => ?_
  all_goals
    split
    · exact quiet_bind (quiet_pure _) fun body => quiet_declaration (by simp +contextual)
    · refine quiet_bind (quiet_members ?_) fun members => ?_
      · simp +contextual [Members.items]
      · exact quiet_bind (quiet_pure _) fun body => quiet_declaration (by simp +contextual)

/-! Members. -/

theorem quiet_throwsClause {n : Node} {ts : List TypeRef} (h : ∀ t ∈ ts, p (.type t)) :
    Quiet p (throwsClause n ts) := by
  unfold throwsClause
  split
  · exact quiet_pure _
  · exact quiet_bind (quiet_typeList h) fun _ => quiet_pure _

theorem quiet_parameters {n : Node} {fields : List Field} (h : ∀ x ∈ fields, p (.field x)) :
    Quiet p (parameters n fields) := quiet_commaList h

theorem quiet_renderMethod (m : Method) :
    Quiet (Item.method m).Holds (renderMethod ctx ⟨.method m, place⟩ m).run := by
  refine quiet_draftBind (quiet_lift (quiet_genericList (by simp +contextual))) fun generics => ?_
  refine quiet_draftBind (quiet_child (by simp [Node.part])) fun type => ?_
  refine quiet_draftBind (quiet_lift (quiet_parameters (by simp +contextual))) fun _ => ?_
  refine quiet_draftBind (quiet_lift (quiet_throwsClause (by simp +contextual))) fun throws => ?_
  exact quiet_lift (quiet_declaration (by simp +contextual))

theorem quiet_renderConstructor (c : Constructor) :
    Quiet (Item.constructor c).Holds (renderConstructor ctx ⟨.constructor c, place⟩ c).run := by
  unfold renderConstructor
  cases ctx.stack.enclosing?.bind Node.name? with
  | none => exact .done _
  | some name =>
    refine quiet_draftBind (quiet_lift (quiet_parameters (by simp +contextual))) fun _ => ?_
    refine quiet_draftBind (quiet_lift (quiet_throwsClause (by simp +contextual))) fun _ => ?_
    exact quiet_lift (quiet_declaration (by simp +contextual))

theorem quiet_initialValue {n : Node} {lead : String} {value : Option Value}
    (h : ∀ v, value = some v → p (.value v)) : Quiet p (initialValue n lead value).run := by
  cases value with
  | none => exact quiet_draftPure _
  | some v => exact quiet_draftBind (quiet_child (h v rfl)) fun _ => quiet_draftPure _

theorem quiet_renderField (x : Field) :
    Quiet (Item.field x).Holds (renderField ctx ⟨.field x, place⟩ x).run := by
  have hannotations : ∀ u ∈ x.annotations, (Item.field x).Holds (.annotationUse u) := by
    simp +contextual [Item.heading, Item.annotations?]
  have hdeclaration {signature : String} : Quiet (Item.field x).Holds
      (liftM (declaration ctx.format ⟨.field x, place⟩ signature) : Draft String).run :=
    quiet_lift (quiet_declaration (by simp +contextual))
  refine quiet_draftBind (quiet_child (by simp [Node.part])) fun type => ?_
  dsimp only
  split
  · exact quiet_draftBind (quiet_lift (quiet_parts hannotations)) fun _ => quiet_draftPure _
  · exact quiet_draftBind (quiet_lift (quiet_parts hannotations)) fun _ => quiet_draftPure _
  · exact quiet_draftBind (quiet_initialValue (by simp +contextual)) fun _ => hdeclaration
  · exact quiet_draftBind (quiet_initialValue (by simp +contextual)) fun _ => hdeclaration

/-! Parts of declarations. -/

theorem quiet_renderGeneric (g : Generic) :
    Quiet (Item.generic g).Holds (renderGeneric ⟨.generic g, place⟩ g) := by
  unfold renderGeneric
  dsimp only
  split
  · exact quiet_pure _
  · exact quiet_bind (quiet_parts (by simp +contextual)) fun _ => quiet_pure _

theorem quiet_namedValues {pairs : List (String × Node)} (h : ∀ q ∈ pairs, p q.2.item) :
    Quiet p (namedValues pairs).run := by
  induction pairs with
  | nil => exact quiet_draftPure _
  | cons q pairs ih =>
    refine quiet_draftBind (quiet_child (h q (by simp))) fun text => ?_
    exact quiet_draftBind (ih fun r hr => h r (by simp [hr])) fun rest => quiet_draftPure _

theorem quiet_renderAnnotationUse (u : AnnotationUse) :
    Quiet (Item.annotationUse u).Holds
      (renderAnnotationUse ⟨.annotationUse u, place⟩ u).run := by
  refine quiet_draftBind (quiet_child (by simp [Node.part])) fun type => ?_
  split
  · cases hvalue : u.value with
    | none => exact quiet_draftPure _
    | some v =>
      refine quiet_draftBind (quiet_lift (quiet_argumentList ?_)) fun _ => quiet_draftPure _
      simp [hvalue]
  · refine quiet_draftBind (quiet_namedValues fun q hq => ?_) fun pairs => quiet_draftPure _
    obtain ⟨v, hv, place, hnode⟩ := mem_parts (List.of_mem_zip hq).2
    rw [hnode]
    have : ∃ w ∈ u.values, w.value = v.value := ⟨v, hv, rfl⟩
    simp [this]

theorem quiet_renderValue (f : Format) (v : Value) :
    Quiet (Item.value v).Holds (renderValue f ⟨.value v, place⟩ v).run := by
  cases v with
  | array items =>
    refine quiet_draftBind (quiet_lift (quiet_argumentList ?_)) fun _ => quiet_draftPure _
    simp +contextual [Item.valueContents]
  | enumConstant type constant =>
    refine quiet_draftBind (quiet_child ?_) fun _ => quiet_draftPure _
    simp [Item.valueContents, Node.part]
  | invocation target name arguments =>
    cases target
    case' none => refine quiet_draftBind (quiet_draftPure _) fun target => ?_
    case' some t =>
      refine quiet_draftBind (quiet_child (by simp [Item.valueContents, Node.part])) fun type => ?_
      refine quiet_draftBind (quiet_draftPure _) fun target => ?_
    all_goals
      refine quiet_draftBind (quiet_lift (quiet_argumentList ?_)) fun _ => quiet_draftPure _
      simp +contextual [Item.valueContents]
  | anonymous body =>
    refine quiet_draftBind (quiet_child (by simp [Item.valueContents, Node.part])) fun type => ?_
    refine quiet_draftBind (quiet_lift (quiet_argumentList ?_)) fun arguments => ?_
    · simp +contextual [Item.valueContents]
    refine quiet_draftBind (quiet_lift (quiet_members ?_)) fun members => quiet_draftPure _
    simp +contextual [Item.valueContents, Members.items]
  | boolean | number | reference | text | null => exact quiet_draftPure _

/-! Comments. -/

theorem quiet_renderJavadoc (f : Format) (j : Javadoc) :
    Quiet (Item.javadoc j).Holds (renderJavadoc f ⟨.javadoc j, place⟩ j) := by
  unfold renderJavadoc
  split
  · exact quiet_pure _
  · exact quiet_bind (quiet_parts (by simp +contextual)) fun _ => quiet_pure _

end

end Scribe.Java
