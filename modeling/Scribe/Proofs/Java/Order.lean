import Scribe.Proofs.Java.Complete
import Scribe.Proofs.Model.Rearranged

/-!
The children that are rendered for an item, one slot after another. As long as the children that a
transform needs give text, what it asks for depends on nothing but the item and the kind of its
parent. So items that differ in the order of their parts are rendered by visits that differ in their
order: the same types are referred to, at the same depths.
-/
namespace Scribe

namespace Item

/-- The slots of an item whose parts are rendered for it, in their order. -/
@[simp] def rendered (parent : Option Kind) : Item → List Slot
  | classDecl _ => [.generics, .supertype, .interfaces, .fields, .initializers, .constructors,
      .methods, .classes, .javadoc, .annotations]
  | interfaceDecl _ => [.generics, .interfaces, .fields, .methods, .classes, .javadoc, .annotations]
  | enumDecl _ => [.interfaces, .constants, .fields, .initializers, .constructors, .methods,
      .classes, .javadoc, .annotations]
  | annotationDecl _ => [.fields, .javadoc, .annotations]
  | enumConstant _ => [.values, .fields, .methods, .javadoc]
  | method _ => [.generics, .type, .fields, .exceptions, .javadoc, .annotations]
  | constructor _ => [.fields, .exceptions, .javadoc, .annotations]
  | field _ => .type :: match parent with
    | some .method | some .constructor => [.annotations]
    | _ => [.value, .javadoc, .annotations]
  | generic _ => [.bounds]
  | javadoc _ => [.tags]
  | annotationUse x => .type :: if x.values.isEmpty then [.value] else [.values]
  | type _ => [.arguments]
  | value _ => [.values, .type, .arguments, .fields, .methods]
  | _ => []

@[simp] def children (parent : Option Kind) (i : Item) : List Item :=
  (i.rendered parent).flatMap i.slot

theorem rendered_shell (parent : Option Kind) (i : Item) :
    i.shell.rendered parent = i.rendered parent := by
  cases i with
  | value v => cases v <;> rfl
  | annotationUse u => simp [shell]
  | _ => rfl

theorem lists_children {i j : Item} (h : Rearranged i j) (parent : Option Kind) :
    Rearranged.Lists (i.children parent) (j.children parent) := by
  have hslots : i.rendered parent = j.rendered parent := by
    rw [← i.rendered_shell, h.shell_eq, j.rendered_shell]
  unfold children
  rw [hslots]
  exact h.lists_flatMap _

end Item

namespace Java

open Script

/-! Scripts that ask for some items, if the children that they may need give text. -/

def Lists (items : List Item) (s : Script α) : Prop :=
  ∀ c d, (∀ a ∈ s.asks c d, a.node.item.isNeeded → a.texts ≠ []) →
    (s.asks c d).map (·.node.item) = items

variable {items items' : List Item}

theorem lists_pure (a : α) : Lists [] (pure a : Script α) := fun _ _ _ => rfl

theorem lists_bind {s : Script α} {k : α → Script β} (hs : Lists items s)
    (hk : ∀ a, Lists items' (k a)) : Lists (items ++ items') (s >>= k) := by
  intro c d h
  rw [asks_monadBind] at h ⊢
  rw [List.map_append]
  congr 1
  · exact hs c d fun a ha => h a (List.mem_append_left _ ha)
  · exact hk _ _ _ fun a ha => h a (List.mem_append_right _ ha)

theorem lists_pureBind {a : α} {k : α → Script β} (hk : Lists items (k a)) :
    Lists items (pure a >>= k) := hk

theorem lists_map {s : Script α} {k : α → β} (hs : Lists items s) :
    Lists items (s >>= fun a => pure (k a)) := by
  rw [← items.append_nil]
  exact lists_bind hs fun a => lists_pure _

theorem asks_texts (c : Children) (ns : List Node) (d : Dependencies) :
    ((texts ns).asks c d).map (·.node) = ns := by
  induction ns generalizing d with
  | nil => rfl
  | cons n ns ih =>
    simp only [texts, asks, asks_bind, List.append_nil, List.map_cons, ih]

theorem map_item_parts (n : Node) (slot : Slot) (items : List Item) :
    (n.parts slot items).map (·.item) = items := by
  unfold Node.parts
  rw [List.mapIdx_eq_zipIdx_map, List.map_map]
  exact List.zipIdx_map_fst 0 items

theorem map_item_asks_texts (c : Children) (ns : List Node) (d : Dependencies) :
    ((texts ns).asks c d).map (·.node.item) = ns.map (·.item) := by
  conv_rhs => rw [← asks_texts c ns d, List.map_map]
  rfl

theorem lists_texts (ns : List Node) : Lists (ns.map (·.item)) (texts ns) :=
  fun c d _ => map_item_asks_texts c ns d

theorem lists_parts (n : Node) (slot : Slot) (items : List Item) :
    Lists items (texts (n.parts slot items)) := by
  have h := lists_texts (n.parts slot items)
  rwa [map_item_parts] at h

/-! Drafts. -/

theorem lists_draftPure (a : α) : Lists [] (pure a : Draft α).run := lists_pure _

theorem lists_lift {s : Script α} (h : Lists items s) : Lists items (liftM s : Draft α).run :=
  lists_map h

theorem lists_child (n : Node) : Lists [n.item] (child n).run := fun _ _ _ => rfl

theorem lists_draftBind {x : Draft α} {k : α → Draft β} (hfirm : Firm x.run)
    (hx : Lists items x.run) (hk : ∀ a, Lists items' (k a).run) :
    Lists (items ++ items') (x >>= k).run := by
  intro c d h
  rw [OptionT.run_bind, Option.elimM] at h ⊢
  rw [asks_monadBind] at h ⊢
  have hneeded : ∀ a ∈ x.run.asks c d, a.node.item.isNeeded → a.texts ≠ [] :=
    fun a ha => h a (List.mem_append_left _ ha)
  obtain ⟨a, hsome⟩ := Option.isSome_iff_exists.1 (hfirm c d hneeded)
  rw [hsome] at h ⊢
  rw [List.map_append, hx c d hneeded]
  exact congrArg (items ++ ·) (hk a c _ fun b hb => h b (List.mem_append_right _ hb))

theorem lists_draftDone {x : Draft α} {k : α → Draft β} (hfirm : Firm x.run)
    (hx : Lists items x.run) (hk : ∀ a, Lists [] (k a).run) : Lists items (x >>= k).run := by
  have h := lists_draftBind hfirm hx hk
  rwa [List.append_nil] at h

theorem lists_liftBind {s : Script α} {k : α → Draft β} (hs : Lists items s)
    (hk : ∀ a, Lists items' (k a).run) : Lists (items ++ items') (liftM s >>= k : Draft β).run :=
  lists_draftBind (firm_lift s) (lists_lift hs) hk

theorem lists_liftDone {s : Script α} {k : α → Draft β} (hs : Lists items s)
    (hk : ∀ a, Lists [] (k a).run) : Lists items (liftM s >>= k : Draft β).run :=
  lists_draftDone (firm_lift s) (lists_lift hs) hk

theorem lists_childBind {n : Node} {k : String → Draft β} (h : n.item.isNeeded)
    (hk : ∀ a, Lists items (k a).run) : Lists (n.item :: items) (child n >>= k).run :=
  lists_draftBind (firm_child h) (lists_child n) hk

/-! Fragments. -/

section

variable {n : Node}

theorem lists_bindDone {s : Script α} {k : α → Script β} (hs : Lists items s)
    (hk : ∀ a, Lists [] (k a)) : Lists items (s >>= k) := by
  have h := lists_bind hs hk
  rwa [List.append_nil] at h

theorem lists_commaList (n : Node) (slot : Slot) (items : List Item) :
    Lists items (commaList (n.parts slot items)) :=
  lists_bindDone (lists_parts n slot items) fun _ => lists_pure _

theorem lists_genericList (n : Node) (gs : List Generic) :
    Lists (gs.map .generic) (genericList n gs) := by
  refine lists_bindDone (lists_parts n .generics _) fun texts => ?_
  cases texts <;> exact lists_pure _

theorem lists_preamble (n : Node) : Lists n.item.heading (preamble n) := by
  unfold preamble Item.heading
  cases n.item.javadoc?
  case' none => refine lists_bind (lists_pure _) fun javadoc => ?_
  case' some j => refine lists_bind (lists_texts _) fun javadoc => ?_
  all_goals
    cases n.item.annotations? with
    | none => exact lists_bindDone (lists_pure _) fun annotations => lists_pure _
    | some us => exact lists_bindDone (lists_parts n .annotations _) fun annotations => lists_pure _

theorem lists_declaration (f : Format) (n : Node) (signature : String) :
    Lists n.item.heading (declaration f n signature) :=
  lists_bindDone (lists_preamble n) fun _ => lists_pure _

theorem lists_members (f : Format) (n : Node) (m : Members) : Lists m.items (m.render f n) := by
  unfold Members.items
  simp only [List.append_assoc]
  refine lists_bind (lists_parts n .fields _) fun fields => ?_
  refine lists_bind (lists_parts n .initializers _) fun initializers => ?_
  refine lists_bind (lists_parts n .constructors _) fun constructors => ?_
  refine lists_bind (lists_parts n .methods _) fun methods => ?_
  exact lists_bindDone (lists_parts n .classes _) fun classes => lists_pure _

theorem lists_typeClause (n : Node) (slot : Slot) (keyword : String) (ts : List TypeRef) :
    Lists (ts.map .type) (typeClause n slot keyword ts) := by
  cases ts with
  | nil => exact lists_pure _
  | cons t ts => exact lists_bindDone (lists_commaList n slot _) fun _ => lists_pure _

theorem lists_throwsClause (n : Node) (exceptions : List TypeRef) :
    Lists (exceptions.map .type) (throwsClause n exceptions) := by
  cases exceptions with
  | nil => exact lists_pure _
  | cons t ts => exact lists_bindDone (lists_commaList n .exceptions _) fun _ => lists_pure _

end

/-! Transforms. -/

section

variable (ctx : Context) (parent : Option Kind) (place : Place)

theorem lists_renderClass (d : ClassDecl) :
    Lists ((Item.classDecl d).children parent) (renderClass ctx ⟨.classDecl d, place⟩ d).run := by
  have hchildren : (Item.classDecl d).children parent =
      d.generics.map .generic ++ (d.supertype.toList.map .type ++ (d.interfaces.map .type ++
        (Members.items { d with } ++ (Item.classDecl d).heading))) := by
    simp [Item.slot, Members.items, Item.heading, Item.javadoc?,
      Item.annotations?]
  rw [hchildren]
  refine lists_liftBind (lists_genericList _ _) fun generics => ?_
  cases d.supertype
  case' none => refine lists_draftBind (firm_draftPure _) (lists_draftPure _) fun supertype => ?_
  case' some t =>
    refine lists_childBind rfl fun text => ?_
    refine lists_draftBind (firm_draftPure _) (lists_draftPure _) fun supertype => ?_
  all_goals
    refine lists_liftBind (lists_typeClause _ _ _ _) fun interfaces => ?_
    refine lists_liftBind (lists_members _ _ _) fun body => ?_
    exact lists_lift (lists_declaration _ _ _)

theorem lists_renderInterface (d : InterfaceDecl) :
    Lists ((Item.interfaceDecl d).children parent)
      (renderInterface ctx ⟨.interfaceDecl d, place⟩ d) := by
  have hchildren : (Item.interfaceDecl d).children parent =
      d.generics.map .generic ++ (d.interfaces.map .type ++
        (Members.items { d with } ++ (Item.interfaceDecl d).heading)) := by
    simp [Item.slot, Members.items, Item.heading, Item.javadoc?,
      Item.annotations?]
  rw [hchildren]
  refine lists_bind (lists_genericList _ _) fun generics => ?_
  refine lists_bind (lists_typeClause _ _ _ _) fun interfaces => ?_
  exact lists_bind (lists_members _ _ _) fun body => lists_declaration _ _ _

theorem lists_renderEnum (d : EnumDecl) :
    Lists ((Item.enumDecl d).children parent) (renderEnum ctx ⟨.enumDecl d, place⟩ d) := by
  have hchildren : (Item.enumDecl d).children parent =
      d.interfaces.map .type ++ (d.constants.map .enumConstant ++
        (Members.items { d with } ++ (Item.enumDecl d).heading)) := by
    simp [Item.slot, Members.items, Item.heading, Item.javadoc?,
      Item.annotations?]
  rw [hchildren]
  refine lists_bind (lists_typeClause _ _ _ _) fun interfaces => ?_
  refine lists_bind (lists_parts _ .constants _) fun constants => ?_
  exact lists_bind (lists_members _ _ _) fun members => lists_declaration _ _ _

theorem lists_renderAnnotationDecl (d : AnnotationDecl) :
    Lists ((Item.annotationDecl d).children parent)
      (renderAnnotationDecl ctx ⟨.annotationDecl d, place⟩ d) := by
  have hchildren : (Item.annotationDecl d).children parent =
      d.fields.map .field ++ (Item.annotationDecl d).heading := by
    simp [Item.slot, Item.heading, Item.javadoc?, Item.annotations?]
  rw [hchildren]
  exact lists_bind (lists_parts _ .fields _) fun elements => lists_declaration _ _ _

theorem lists_renderEnumConstant (c : EnumConstant) :
    Lists ((Item.enumConstant c).children parent)
      (renderEnumConstant ctx ⟨.enumConstant c, place⟩ c) := by
  have hchildren : (Item.enumConstant c).children parent =
      c.values.map .value ++ (Members.items { c with } ++ (Item.enumConstant c).heading) := by
    simp [Item.slot, Members.items, Item.heading, Item.javadoc?,
      Item.annotations?]
  have hmembers (h : (c.fields.isEmpty && c.methods.isEmpty) = true) :
      Members.items { c with } = [] := by
    rw [Bool.and_eq_true, List.isEmpty_iff, List.isEmpty_iff] at h
    simp [Members.items, h]
  rw [hchildren]
  unfold renderEnumConstant
  dsimp only
  split
  case' isTrue h =>
    rw [List.isEmpty_iff.1 h, List.map_nil, List.nil_append]
    refine lists_pureBind ?_
  case' isFalse =>
    refine lists_bind (lists_commaList _ .values _) fun list => ?_
    refine lists_pureBind ?_
  all_goals
    split
    · next h =>
      rw [hmembers h]
      exact lists_pureBind (lists_declaration _ _ _)
    · exact lists_bind (lists_members _ _ _) fun members =>
        lists_pureBind (lists_declaration _ _ _)

theorem lists_renderMethod (m : Method) :
    Lists ((Item.method m).children parent) (renderMethod ctx ⟨.method m, place⟩ m).run := by
  have hchildren : (Item.method m).children parent =
      m.generics.map .generic ++ (Item.type m.type :: (m.fields.map .field ++
        (m.exceptions.map .type ++ (Item.method m).heading))) := by
    simp [Item.slot, Item.heading, Item.javadoc?, Item.annotations?]
  rw [hchildren]
  refine lists_liftBind (lists_genericList _ _) fun generics => ?_
  refine lists_childBind rfl fun type => ?_
  refine lists_liftBind (lists_commaList _ .fields _) fun parameters => ?_
  refine lists_liftBind (lists_throwsClause _ _) fun throws => ?_
  exact lists_lift (lists_declaration _ _ _)

theorem lists_renderConstructor (c : Constructor) {name : String}
    (h : ctx.stack.enclosing?.bind Node.name? = some name) :
    Lists ((Item.constructor c).children parent)
      (renderConstructor ctx ⟨.constructor c, place⟩ c).run := by
  have hchildren : (Item.constructor c).children parent =
      c.fields.map .field ++ (c.exceptions.map .type ++ (Item.constructor c).heading) := by
    simp [Item.slot, Item.heading, Item.javadoc?, Item.annotations?]
  rw [hchildren]
  unfold renderConstructor
  rw [h]
  refine lists_liftBind (lists_commaList _ .fields _) fun parameters => ?_
  refine lists_liftBind (lists_throwsClause _ _) fun throws => ?_
  exact lists_lift (lists_declaration _ _ _)

theorem lists_initialValue (n : Node) (lead : String) (value : Option Value) :
    Lists (value.toList.map .value) (initialValue n lead value).run := by
  cases value with
  | none => exact lists_draftPure _
  | some v => exact lists_childBind rfl fun text => lists_draftPure _

theorem lists_renderField (x : Field) :
    Lists ((Item.field x).children (ctx.stack.parent?.map Node.kind))
      (renderField ctx ⟨.field x, place⟩ x).run := by
  have hchildren (parent : Option Kind) : (Item.field x).children parent =
      Item.type x.type :: match parent with
        | some .method | some .constructor => x.annotations.map .annotationUse
        | _ => x.value.toList.map .value ++ (Item.field x).heading := by
    simp only [Item.children, Item.rendered]
    split <;> simp [Item.slot, Item.heading, Item.javadoc?, Item.annotations?]
  have hannotations (text : List String → String) : Lists (x.annotations.map .annotationUse)
      (liftM (texts (Node.parts ⟨.field x, place⟩ .annotations
        (x.annotations.map .annotationUse))) >>= fun annotations =>
          (pure (text annotations) : Draft String)).run :=
    lists_liftDone (lists_parts _ .annotations _) fun _ => lists_draftPure _
  have hdeclaration (lead : String) (signature : String → String) :
      Lists (x.value.toList.map .value ++ (Item.field x).heading)
        (initialValue ⟨.field x, place⟩ lead x.value >>= fun value =>
          liftM (declaration ctx.format ⟨.field x, place⟩ (signature value))).run :=
    lists_draftBind (firm_initialValue _ _ _) (lists_initialValue _ _ _) fun value =>
      lists_lift (lists_declaration _ _ _)
  rw [hchildren]
  refine lists_childBind (n := Node.part ⟨.field x, place⟩ .type (.type x.type)) rfl fun type => ?_
  dsimp only
  generalize ctx.stack.parent?.map Node.kind = parent
  cases parent with
  | none => exact hdeclaration " = " fun value => _ ++ value ++ ";"
  | some k =>
    cases k with
    | method | constructor => exact hannotations _
    | annotationDecl => exact hdeclaration " default " fun value => _ ++ value ++ ";"
    | _ => exact hdeclaration " = " fun value => _ ++ value ++ ";"

theorem lists_namedValues (pairs : List (String × Node)) (h : ∀ q ∈ pairs, q.2.item.isNeeded) :
    Lists ((pairs.map Prod.snd).map (·.item)) (namedValues pairs).run := by
  induction pairs with
  | nil => exact lists_draftPure _
  | cons q pairs ih =>
    have h' : ∀ r ∈ pairs, r.2.item.isNeeded := fun r hr => h r (by simp [hr])
    refine lists_childBind (h q (by simp)) fun text => ?_
    exact lists_draftDone (firm_namedValues h') (ih h') fun rest => lists_draftPure _

theorem lists_renderAnnotationUse (u : AnnotationUse) :
    Lists ((Item.annotationUse u).children parent)
      (renderAnnotationUse ⟨.annotationUse u, place⟩ u).run := by
  have hchildren : (Item.annotationUse u).children parent =
      Item.type u.type :: if u.values.isEmpty then u.value.toList.map .value
        else u.values.map (fun v => .value v.value) := by
    simp only [Item.children, Item.rendered]
    split <;> simp [Item.slot]
  rw [hchildren]
  refine lists_childBind (n := Node.part ⟨.annotationUse u, place⟩ .type (.type u.type)) rfl
    fun type => ?_
  split
  · cases u.value with
    | none => exact lists_draftPure _
    | some v => exact lists_liftDone (lists_commaList _ .value _) fun list => lists_draftPure _
  · have hneeded : ∀ q ∈ (u.values.map (·.name)).zip (Node.parts ⟨.annotationUse u, place⟩ .values
        (u.values.map fun v => .value v.value)), q.2.item.isNeeded := by
      intro q hq
      obtain ⟨v, -, place, hnode⟩ := mem_parts (List.of_mem_zip hq).2
      rw [hnode]
      rfl
    have hlists := lists_namedValues _ hneeded
    rw [List.map_snd_zip (by simp [Node.parts]), map_item_parts] at hlists
    exact lists_draftDone (firm_namedValues hneeded) hlists fun pairs => lists_draftPure _

theorem lists_renderValue (f : Format) (v : Value) :
    Lists ((Item.value v).children parent) (renderValue f ⟨.value v, place⟩ v).run := by
  cases v with
  | array items => exact lists_liftBind (lists_commaList _ .values _) fun list => lists_draftPure _
  | enumConstant type constant => exact lists_childBind rfl fun type => lists_draftPure _
  | invocation target name arguments =>
    have hchildren : (Item.value (.invocation target name arguments)).children parent =
        target.toList.map .type ++ (arguments.map .value ++ []) := by
      simp [Item.slot]
    rw [hchildren]
    cases target
    case' none =>
      refine lists_draftBind (firm_draftPure _) (lists_draftPure _) fun target => ?_
    case' some t =>
      refine lists_childBind rfl fun type => ?_
      refine lists_draftBind (firm_draftPure _) (lists_draftPure _) fun target => ?_
    all_goals
      exact lists_liftBind (lists_commaList _ .arguments _) fun list => lists_draftPure _
  | anonymous body =>
    have hchildren : (Item.value (.anonymous body)).children parent =
        Item.type body.type :: (body.arguments.map .value ++
          (Members.items { body with } ++ [])) := by
      simp [Item.slot, Members.items]
    rw [hchildren]
    refine lists_childBind rfl fun type => ?_
    refine lists_liftBind (lists_commaList _ .arguments _) fun arguments => ?_
    exact lists_liftBind (lists_members _ _ _) fun members => lists_draftPure _
  | boolean | number | reference | text | null => exact lists_draftPure _

theorem lists_renderGeneric (g : Generic) :
    Lists ((Item.generic g).children parent) (renderGeneric ⟨.generic g, place⟩ g) := by
  have hchildren : (Item.generic g).children parent = g.bounds.map .type := by
    simp [Item.slot]
  rw [hchildren]
  unfold renderGeneric
  dsimp only
  split
  · next h =>
    rw [List.isEmpty_iff.1 h]
    exact lists_pure _
  · exact lists_bindDone (lists_parts _ .bounds _) fun bounds => lists_pure _

theorem lists_renderJavadoc (f : Format) (j : Javadoc) :
    Lists ((Item.javadoc j).children parent) (renderJavadoc f ⟨.javadoc j, place⟩ j) := by
  have hchildren : (Item.javadoc j).children parent = j.tags.map .javadocTag := by
    simp [Item.slot]
  rw [hchildren]
  unfold renderJavadoc
  split
  · next h =>
    rw [Javadoc.isEmpty, Bool.and_eq_true] at h
    rw [List.isEmpty_iff.1 h.2]
    exact lists_pure _
  · exact lists_bindDone (lists_parts _ .tags _) fun tags => lists_pure _

theorem lists_typeName (name : String) : Lists [] (typeName name) := by
  intro c d _
  rw [asks_typeName, List.map_nil]

theorem lists_script (n : Node) (hfile : n.kind ≠ .file) (hmarkup : n.kind.isMarkup = false)
    (hconstructor : n.kind = .constructor → (ctx.stack.enclosing?.bind Node.name?).isSome) :
    Lists (n.item.children (ctx.stack.parent?.map Node.kind)) (script ctx n) := by
  obtain ⟨item, place⟩ := n
  cases item with
  | file => exact absurd rfl hfile
  | document | declaration | tag | tagAttribute | text => exact nomatch hmarkup
  | importDecl i => exact fun c d _ => congrArg _ (run_importDecl ctx i place c d).2
  | classDecl d => exact lists_renderClass ctx _ place d
  | interfaceDecl d =>
    exact lists_bindDone (lists_renderInterface ctx _ place d) fun _ => lists_pure _
  | enumDecl d => exact lists_bindDone (lists_renderEnum ctx _ place d) fun _ => lists_pure _
  | annotationDecl d =>
    exact lists_bindDone (lists_renderAnnotationDecl ctx _ place d) fun _ => lists_pure _
  | enumConstant c =>
    exact lists_bindDone (lists_renderEnumConstant ctx _ place c) fun _ => lists_pure _
  | method m => exact lists_renderMethod ctx _ place m
  | constructor c =>
    obtain ⟨name, hname⟩ := Option.isSome_iff_exists.1 (hconstructor rfl)
    exact lists_renderConstructor ctx _ place c hname
  | field x => exact lists_renderField ctx place x
  | generic g => exact lists_bindDone (lists_renderGeneric _ place g) fun _ => lists_pure _
  | javadoc j =>
    rw [script_javadoc]
    exact lists_renderJavadoc _ place ctx.format j
  | javadocTag t => exact lists_pure _
  | annotationUse u => exact lists_renderAnnotationUse _ place u
  | initializer i => exact lists_pure _
  | type t =>
    have hchildren (parent : Option Kind) : (Item.type t).children parent =
        [] ++ t.arguments.map .ofArgument := by
      simp [Item.slot]
    rw [hchildren, script_type]
    refine lists_bind (lists_typeName t.name) fun name => ?_
    exact lists_bindDone (lists_parts _ .arguments _) fun arguments => lists_pure _
  | value v =>
    rw [script_value]
    exact lists_renderValue _ place ctx.format v

end

end Java

end Scribe
