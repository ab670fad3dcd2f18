import Scribe.Proofs.Java.Implied

/-!
Bare trees are written like the trees they come from, and leave the session the same. Of a node only
its own transform sees whether an implied modifier is there, and for it such a modifier neither
decides about a body nor is it written.
-/
namespace Scribe

namespace Java

open Script

/-! What a transform sees. -/

theorem script_congr {f : Format} {s s' : Stack} {n : Node}
    (htop : s.top?.map Node.kind = s'.top?.map Node.kind)
    (hparent : s.parent?.map Node.kind = s'.parent?.map Node.kind)
    (hname : s.enclosing?.bind Node.name? = s'.enclosing?.bind Node.name?)
    (hvarargs : ∀ x, isVarargs s n x = isVarargs s' n x) :
    script ⟨f, s⟩ n = script ⟨f, s'⟩ n := by
  have himplicit : implicitModifiers s = implicitModifiers s' := by
    unfold implicitModifiers
    cases h : s.top? <;> cases h' : s'.top? <;> cases hp : s.parent? <;> cases hp' : s'.parent? <;>
      simp_all
  have hwords (ms : Modifiers) : modifierWords s ms = modifierWords s' ms := by
    rw [modifierWords, himplicit, modifierWords]
  have hbody (ms : Modifiers) : hasBody s ms = hasBody s' ms := by
    rw [hasBody, hparent, hasBody]
  obtain ⟨item, place⟩ := n
  cases item with
  | classDecl d =>
    change (renderClass _ _ d).run = (renderClass _ _ d).run
    simp only [renderClass, hwords]
  | interfaceDecl d =>
    change some <$> renderInterface _ _ d = some <$> renderInterface _ _ d
    simp only [renderInterface, hwords]
  | enumDecl d =>
    change some <$> renderEnum _ _ d = some <$> renderEnum _ _ d
    simp only [renderEnum, hwords]
  | annotationDecl d =>
    change some <$> renderAnnotationDecl _ _ d = some <$> renderAnnotationDecl _ _ d
    simp only [renderAnnotationDecl, hwords]
  | method m =>
    change (renderMethod _ _ m).run = (renderMethod _ _ m).run
    simp only [renderMethod, hwords, hbody]
  | constructor c =>
    change (renderConstructor _ _ c).run = (renderConstructor _ _ c).run
    simp only [renderConstructor, hwords, hname]
  | field x =>
    change (renderField _ _ x).run = (renderField _ _ x).run
    simp only [renderField, hwords, hparent, hvarargs]
  | value v => cases v <;> rfl
  | _ => rfl

theorem kind_bare (outer : Option Kind) (n : Node) : (n.bare outer).kind = n.kind :=
  n.item.kind_bare outer

theorem isVarargs_bare (outer : Option Kind) (s : Stack) (p n : Node) (x : Field) :
    isVarargs ((s.push (p.bare outer)).push n) n x = isVarargs ((s.push p).push n) n x := by
  obtain ⟨item, place⟩ := p
  cases item <;> rfl

theorem text?_below_bare (f : Format) (remaining : Nat) (s : Stack) (outer : Option Kind)
    (p n : Node) :
    (text? n).run (below f remaining s (p.bare outer)) = (text? n).run (below f remaining s p) := by
  refine text?_of_script f remaining s (script_congr rfl ?_ ?_ (isVarargs_bare outer s p n))
  · exact congrArg some (kind_bare outer p)
  · have hdecl : (p.bare outer).isTypeDecl = p.isTypeDecl := by
      rw [Node.isTypeDecl, kind_bare, Node.isTypeDecl]
    have hname : (p.bare outer).name? = p.name? := p.item.name?_bare outer
    change ((p.bare outer :: s.nodes).find? _).bind _ = ((p :: s.nodes).find? _).bind _
    rw [List.find?_cons, List.find?_cons, hdecl]
    cases p.isTypeDecl with
    | true => exact hname
    | false => rfl

/-! Its own modifiers. -/

section

variable (s : Stack) {n n' : Node} (ms : Modifiers)

theorem modifierWords_without {k : Kind} (hn : n.kind = k) (hn' : n'.kind = k) :
    modifierWords (s.push n') (ms.without (Implied (s.top?.map Node.kind) k)) =
      modifierWords (s.push n) ms := by
  subst hn
  rw [modifierWords_push hn']
  unfold modifierWords
  congr 2
  unfold Modifiers.toList
  rw [List.filter_filter, List.filter_filter]
  refine List.filter_congr fun m _ => ?_
  rw [Modifiers.contains_without]
  by_cases himplied : Implied (s.top?.map Node.kind) n.kind m
  · have hmem : m ∈ implicitModifiers (s.push n) := by
      unfold implicitModifiers
      rw [Stack.top?_push, Stack.parent?_push]
      cases htop : s.top? with
      | none =>
        rw [htop] at himplied
        exact nomatch himplied
      | some p =>
        rw [htop] at himplied
        exact himplied.mem
    simp [hmem]
  · simp [himplied]

theorem hasBody_without (n n' : Node) :
    hasBody (s.push n') (ms.without (Implied (s.top?.map Node.kind) .method)) =
      hasBody (s.push n) ms := by
  unfold hasBody
  rw [Stack.parent?_push, Stack.parent?_push]
  simp only [Modifiers.contains_without]
  by_cases hinterface : s.top?.map Node.kind = some .interfaceDecl
  · simp [implied_method_iff, hinterface]
  · simp [implied_method_iff, hinterface]

end

/-! Scripts that come to the same. -/

section

variable {c c' : Children}

theorem run_bind_eq {x x' : Script α} {k k' : α → Script β} (hx : x'.run c' = x.run c)
    (hk : ∀ a, (k' a).run c' = (k a).run c) : (x' >>= k').run c' = (x >>= k).run c := by
  funext d
  rw [run_monadBind, run_monadBind, hx, hk]

theorem run_draftBind_eq {x x' : Draft α} {k k' : α → Draft β} (hx : x'.run.run c' = x.run.run c)
    (hk : ∀ a, (k' a).run.run c' = (k a).run.run c) :
    (x' >>= k').run.run c' = (x >>= k).run.run c := by
  rw [OptionT.run_bind, OptionT.run_bind]
  refine run_bind_eq hx fun a => ?_
  cases a with
  | none => rfl
  | some a => exact hk a

theorem run_lift_eq {x x' : Script α} (h : x'.run c' = x.run c) :
    (liftM x' : Draft α).run.run c' = (liftM x : Draft α).run.run c :=
  run_bind_eq h fun _ => rfl

theorem run_texts_map {g : Node → Node} {ns : List Node}
    (h : ∀ n ∈ ns, (text? (g n)).run c' = (text? n).run c) :
    (texts (ns.map g)).run c' = (texts ns).run c := by
  induction ns with
  | nil => rfl
  | cons n ns ih =>
    obtain ⟨hn, hns⟩ := List.forall_mem_cons.1 h
    rw [List.map_cons, texts_cons, texts_cons]
    exact run_bind_eq hn fun text => run_bind_eq (ih hns) fun rest => rfl

end

theorem map_bare_parts (outer : Option Kind) (n : Node) (slot : Slot) {as : List α}
    {item : α → Item} {bare : α → α} (hitem : ∀ a, item (bare a) = (item a).bare outer) :
    n.parts slot ((as.map bare).map item) = (n.parts slot (as.map item)).map (Node.bare outer) := by
  refine List.ext_getElem (by simp [Node.parts]) fun i hi hi' => ?_
  simp [Node.parts, Node.bare, hitem]

def Members.bare (outer : Kind) (m : Members) : Members :=
  { m with
    fields := m.fields.map (·.bare (some outer))
    constructors := m.constructors.map (·.bare (some outer))
    methods := m.methods.map (·.bare (some outer))
    classes := m.classes.map (·.bare (some outer)) }

/-! Declarations. -/

/-- Children inside a node of kind `outer` and inside the bare node come to the same. -/
structure SameBelow (outer : Kind) (c c' : Children) : Prop where
  same : ∀ n, (text? n).run c' = (text? n).run c
  bare : ∀ n : Node, (text? (n.bare (some outer))).run c' = (text? n).run c

namespace SameBelow

variable {outer : Kind} {c c' : Children} (h : SameBelow outer c c')

include h

theorem run_quiet {x : Script α} (hx : Quiet (fun _ => True) x) : x.run c' = x.run c :=
  hx.run_congr fun n _ => h.same n

theorem run_parts {n : Node} {slot : Slot} {as : List α} {item : α → Item} {bare : α → α}
    (hitem : ∀ a, item (bare a) = (item a).bare (some outer)) :
    (texts (n.parts slot ((as.map bare).map item))).run c' =
      (texts (n.parts slot (as.map item))).run c := by
  rw [map_bare_parts (some outer) n slot hitem]
  exact run_texts_map fun n _ => h.bare n

theorem run_members (f : Format) (n : Node) (m : Members) :
    ((m.bare outer).render f n).run c' = (m.render f n).run c := by
  refine run_bind_eq (h.run_parts fun _ => rfl) fun fields => ?_
  refine run_bind_eq (h.run_quiet (quiet_parts fun _ _ => trivial)) fun initializers => ?_
  refine run_bind_eq (h.run_parts fun _ => rfl) fun constructors => ?_
  refine run_bind_eq (h.run_parts fun _ => rfl) fun methods => ?_
  refine run_bind_eq (h.run_parts fun d => ?_) fun classes => rfl
  exact (Item.bare_ofTypeDecl _ d).symm

end SameBelow

section

variable (f : Format) (s : Stack) {c c' : Children} (place : Place)

theorem run_class_bare (h : SameBelow .classDecl c c') (d : ClassDecl) :
    let n : Node := ⟨.classDecl d, place⟩
    let n' := n.bare (s.top?.map Node.kind)
    (script ⟨f, s.push n'⟩ n').run c' = (script ⟨f, s.push n⟩ n).run c := by
  intro n n'
  have hwords : modifierWords (s.push n') (d.bare (s.top?.map Node.kind)).modifiers =
    modifierWords (s.push n) d.modifiers := modifierWords_without s d.modifiers rfl rfl
  have hsupertype : (d.bare (s.top?.map Node.kind)).supertype = d.supertype := rfl
  let members : Members :=
    { fields := d.fields, initializers := d.initializers, constructors := d.constructors
      methods := d.methods, classes := d.classes }
  have htypes {slot : Slot} {keyword : String} {ts : List TypeRef} :
      (typeClause n slot keyword ts).run c' = (typeClause n slot keyword ts).run c :=
    h.run_quiet (quiet_typeClause fun _ _ => trivial)
  change (renderClass ⟨f, s.push n'⟩ n' (d.bare _)).run.run c' =
    (renderClass ⟨f, s.push n⟩ n d).run.run c
  unfold renderClass
  rw [hwords, hsupertype]
  have hgenerics : (genericList n d.generics).run c' = (genericList n d.generics).run c :=
    h.run_quiet (quiet_genericList fun _ _ => trivial)
  refine run_draftBind_eq (run_lift_eq hgenerics) fun generics => ?_
  cases d.supertype
  case' none => refine run_draftBind_eq rfl fun supertype => ?_
  case' some t =>
    refine run_draftBind_eq (h.same _) fun text => ?_
    refine run_draftBind_eq rfl fun supertype => ?_
  all_goals
    refine run_draftBind_eq (run_lift_eq htypes) fun interfaces => ?_
    refine run_draftBind_eq (run_lift_eq (h.run_members f n members)) fun body => ?_
    exact run_lift_eq (h.run_quiet (quiet_declaration fun _ _ => trivial))

theorem run_interface_bare (h : SameBelow .interfaceDecl c c') (d : InterfaceDecl) :
    let n : Node := ⟨.interfaceDecl d, place⟩
    let n' := n.bare (s.top?.map Node.kind)
    (script ⟨f, s.push n'⟩ n').run c' = (script ⟨f, s.push n⟩ n).run c := by
  intro n n'
  have hwords : modifierWords (s.push n') (d.bare (s.top?.map Node.kind)).modifiers =
    modifierWords (s.push n) d.modifiers := modifierWords_without s d.modifiers rfl rfl
  let members : Members := { fields := d.fields, methods := d.methods, classes := d.classes }
  refine run_bind_eq (x := renderInterface ⟨f, s.push n⟩ n d) ?_ fun _ => rfl
  unfold renderInterface
  rw [hwords]
  refine run_bind_eq (h.run_quiet (quiet_genericList fun _ _ => trivial)) fun generics => ?_
  refine run_bind_eq (h.run_quiet (quiet_typeClause fun _ _ => trivial)) fun interfaces => ?_
  refine run_bind_eq (h.run_members f n members) fun body => ?_
  exact h.run_quiet (quiet_declaration fun _ _ => trivial)

theorem run_enum_bare (h : SameBelow .enumDecl c c') (d : EnumDecl) :
    let n : Node := ⟨.enumDecl d, place⟩
    let n' := n.bare (s.top?.map Node.kind)
    (script ⟨f, s.push n'⟩ n').run c' = (script ⟨f, s.push n⟩ n).run c := by
  intro n n'
  have hwords : modifierWords (s.push n') (d.bare (s.top?.map Node.kind)).modifiers =
    modifierWords (s.push n) d.modifiers := modifierWords_without s d.modifiers rfl rfl
  let members : Members :=
    { fields := d.fields, initializers := d.initializers, constructors := d.constructors
      methods := d.methods, classes := d.classes }
  refine run_bind_eq (x := renderEnum ⟨f, s.push n⟩ n d) ?_ fun _ => rfl
  unfold renderEnum
  rw [hwords]
  refine run_bind_eq (h.run_quiet (quiet_typeClause fun _ _ => trivial)) fun interfaces => ?_
  refine run_bind_eq (h.run_quiet (quiet_parts fun _ _ => trivial)) fun constants => ?_
  refine run_bind_eq (h.run_members f n members) fun body => ?_
  exact h.run_quiet (quiet_declaration fun _ _ => trivial)

theorem run_annotationDecl_bare (h : SameBelow .annotationDecl c c') (d : AnnotationDecl) :
    let n : Node := ⟨.annotationDecl d, place⟩
    let n' := n.bare (s.top?.map Node.kind)
    (script ⟨f, s.push n'⟩ n').run c' = (script ⟨f, s.push n⟩ n).run c := by
  intro n n'
  have hwords : modifierWords (s.push n') (d.bare (s.top?.map Node.kind)).modifiers =
    modifierWords (s.push n) d.modifiers := modifierWords_without s d.modifiers rfl rfl
  refine run_bind_eq (x := renderAnnotationDecl ⟨f, s.push n⟩ n d) ?_ fun _ => rfl
  unfold renderAnnotationDecl
  rw [hwords]
  refine run_bind_eq (h.run_parts fun _ => rfl) fun elements => ?_
  exact h.run_quiet (quiet_declaration fun _ _ => trivial)

theorem run_file_bare (h : SameBelow .file c c') (x : File) :
    let n : Node := ⟨.file x, place⟩
    let n' := n.bare (s.top?.map Node.kind)
    (script ⟨f, s.push n'⟩ n').run c' = (script ⟨f, s.push n⟩ n).run c := by
  intro n n'
  let x' : File := { x with classes := x.classes.map (·.bare (some .file)) }
  have hdeclared : x'.declared = x.declared := by
    change TypeDecl.declaredNames x.package? (x.classes.map _) = _
    rw [← TypeDecl.bareAll_eq_map, TypeDecl.declaredNames_bareAll, File.declared]
  have hopening : opening x' = opening x := by
    unfold opening
    rw [hdeclared]
    rfl
  refine run_bind_eq (x := renderFile n x) ?_ fun _ => rfl
  change (renderFile n' x').run c' = _
  rw [renderFile_eq, renderFile_eq, hopening]
  refine run_bind_eq ?opening fun ownsPackage => ?_
  case opening => exact funext fun d => (run_opening c' x d).1.trans (run_opening c x d).1.symm
  refine run_bind_eq ?content fun text => ?closing
  case closing => cases ownsPackage <;> rfl
  refine run_bind_eq (h.run_parts fun d => (Item.bare_ofTypeDecl _ d).symm) fun classes => ?_
  refine run_bind_eq ?imports fun imports => ?_
  case imports =>
    funext d
    exact congrFun (h.run_quiet (quiet_parts fun _ _ => trivial)) d
  refine run_bind_eq (h.run_quiet ?static) fun staticImports => ?_
  case static => exact quiet_texts fun _ _ => trivial
  have hcomment := (quiet_comment n x).run_congr fun m _ => h.same m
  exact run_bind_eq hcomment fun javadoc => rfl

/-! Members are written the same, and so is what is inside them. -/

theorem script_method_bare (m : Method) :
    let n : Node := ⟨.method m, place⟩
    let n' := n.bare (s.top?.map Node.kind)
    script ⟨f, s.push n'⟩ n' = script ⟨f, s.push n⟩ n := by
  intro n n'
  have hwords : modifierWords (s.push n') (m.bare (s.top?.map Node.kind)).modifiers =
    modifierWords (s.push n) m.modifiers := modifierWords_without s m.modifiers rfl rfl
  have hbody : hasBody (s.push n') (m.bare (s.top?.map Node.kind)).modifiers =
    hasBody (s.push n) m.modifiers := hasBody_without s m.modifiers n n'
  change (renderMethod ⟨f, s.push n'⟩ n' (m.bare _)).run = (renderMethod ⟨f, s.push n⟩ n m).run
  unfold renderMethod
  rw [hwords, hbody]
  rfl

theorem script_constructor_bare (x : Constructor) :
    let n : Node := ⟨.constructor x, place⟩
    let n' := n.bare (s.top?.map Node.kind)
    script ⟨f, s.push n'⟩ n' = script ⟨f, s.push n⟩ n := by
  intro n n'
  have hwords : modifierWords (s.push n') (x.bare (s.top?.map Node.kind)).modifiers =
    modifierWords (s.push n) x.modifiers := modifierWords_without s x.modifiers rfl rfl
  change (renderConstructor ⟨f, s.push n'⟩ n' (x.bare _)).run = (renderConstructor _ n x).run
  unfold renderConstructor
  rw [hwords]
  rfl

theorem script_field_bare (x : Field) :
    let n : Node := ⟨.field x, place⟩
    let n' := n.bare (s.top?.map Node.kind)
    script ⟨f, s.push n'⟩ n' = script ⟨f, s.push n⟩ n := by
  intro n n'
  have hwords : modifierWords (s.push n') (x.bare (s.top?.map Node.kind)).modifiers =
    modifierWords (s.push n) x.modifiers := modifierWords_without s x.modifiers rfl rfl
  change (renderField ⟨f, s.push n'⟩ n' (x.bare _)).run = (renderField ⟨f, s.push n⟩ n x).run
  unfold renderField
  rw [hwords]
  rfl

end

theorem text?_bare (f : Format) (remaining : Nat) (s : Stack) (n : Node) :
    (text? (n.bare (s.top?.map Node.kind))).run ((dispatcher f).children remaining s) =
      (text? n).run ((dispatcher f).children remaining s) := by
  induction remaining generalizing s n with
  | zero => rfl
  | succ remaining ih =>
    let n' := n.bare (s.top?.map Node.kind)
    let c := below f remaining s n
    let c' := below f remaining s n'
    have hbelow : SameBelow n.kind c c' :=
      have hsame (m : Node) : (text? m).run c' = (text? m).run c :=
        text?_below_bare f remaining s _ n m
      ⟨hsame, fun m => (hsame _).trans (ih (s.push n) m)⟩
    have hmember (hscript : script ⟨f, s.push n'⟩ n' = script ⟨f, s.push n⟩ n) :
        (script ⟨f, s.push n'⟩ n').run c' = (script ⟨f, s.push n⟩ n).run c := by
      rw [hscript]
      exact run_script_congr (fun m _ => hbelow.same m) fun _ _ => hbelow.same _
    have hrun : (script ⟨f, s.push n'⟩ n').run c' = (script ⟨f, s.push n⟩ n).run c := by
      obtain ⟨item, place⟩ := n
      cases item with
      | file x => exact run_file_bare f s place hbelow x
      | classDecl d => exact run_class_bare f s place hbelow d
      | interfaceDecl d => exact run_interface_bare f s place hbelow d
      | enumDecl d => exact run_enum_bare f s place hbelow d
      | annotationDecl d => exact run_annotationDecl_bare f s place hbelow d
      | method m => exact hmember (script_method_bare f s place m)
      | constructor x => exact hmember (script_constructor_bare f s place x)
      | field x => exact hmember (script_field_bare f s place x)
      | _ => exact hmember rfl
    funext d
    rw [run_text?_succ, run_text?_succ]
    exact congrFun hrun d

end Java

end Scribe
