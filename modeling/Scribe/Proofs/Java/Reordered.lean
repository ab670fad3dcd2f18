import Scribe.Proofs.Java.Clashes
import Scribe.Proofs.Java.Order
import Scribe.Proofs.Java.Parent

/-!
The traces of rearranged items. Within a great enough limit they are made up of the same visits but
for their order: as many at each depth, and referring to the same types.
-/
namespace Scribe

namespace Item

def type? : Item → Option TypeRef
  | type t => some t
  | _ => none

theorem type?_shell (i : Item) : i.shell.type? = i.type? := by
  cases i with
  | value v => cases v <;> rfl
  | _ => rfl

end Item

namespace Visit

theorem reference?_eq (v : Visit) : v.reference? = v.node.item.type?.map (·.name) := by
  unfold reference? Item.type?
  cases v.node.item <;> rfl

/-- What a visit has in common with its counterpart in the trace of a rearranged item. -/
def mark (v : Visit) : Nat × Option TypeRef := (v.stack.depth, v.node.item.type?)

end Visit

namespace Java

open Script

variable {f : Format} {remaining : Nat} {stack stack' : Stack} {n m : Node} {d d' : Dependencies}

theorem texts_ne_nil (hmarkup : n.kind.isMarkup = false) (hrank : n.item.rank ≤ remaining) :
    ∀ a ∈ (script ⟨f, stack.push n⟩ n).asks (below f remaining stack n) d,
      a.node.item.isNeeded → a.texts ≠ [] := by
  intro a ha hneeded hnil
  obtain ⟨hall, hsort, hlt⟩ := asks_lower hmarkup ha
  rw [texts_of_mem_asks ha hall, Option.toList_eq_nil_iff, Option.map_eq_none_iff] at hnil
  exact not_excused_of_isNeeded hneeded ((complete.first_eq_none_iff hsort (by omega)).1 hnil)

def Enclosed (stack : Stack) (n : Node) : Prop :=
  n.kind = .constructor → ∃ p ∈ stack.nodes, p.isTypeDecl

theorem isSome_enclosing? (h : Enclosed stack n) (hconstructor : n.kind = .constructor) :
    ((stack.push n).enclosing?.bind Node.name?).isSome := by
  rw [enclosing?_push]
  have hfind : (stack.nodes.find? Node.isTypeDecl).isSome := by
    rw [List.find?_isSome]
    exact h hconstructor
  obtain ⟨p, hp⟩ := Option.isSome_iff_exists.1 hfind
  rw [hp]
  exact isSome_name? (List.find?_some hp)

theorem enclosed_of_holds (h : n.item.Holds m.item) : Enclosed (stack.push n) m := by
  intro hconstructor
  refine ⟨n, List.mem_cons_self, ?_⟩
  exact beq_iff_eq.2 (Item.family_of_holds_constructor h hconstructor)

theorem map_item_asks (hfile : n.kind ≠ .file) (hmarkup : n.kind.isMarkup = false)
    (hrank : n.item.rank ≤ remaining) (henclosed : Enclosed stack n) :
    ((script ⟨f, stack.push n⟩ n).asks (below f remaining stack n) d).map (·.node.item) =
      n.item.children (stack.top?.map Node.kind) := by
  rw [← Stack.parent?_push stack n]
  exact lists_script ⟨f, stack.push n⟩ n hfile hmarkup (isSome_enclosing? henclosed) _ _
    (texts_ne_nil hmarkup hrank)

theorem exists_transform {k : Kind} (h : k.isMarkup = false) : ∃ t, transform? k = some t := by
  cases k with
  | document | declaration | tag | tagAttribute | text => exact nomatch h
  | _ => exact ⟨_, rfl⟩

theorem mark_ownVisit (h : Rearranged n.item m.item) (hdepth : stack.depth = stack'.depth)
    (t t' : Transform) :
    (ownVisit f remaining stack n d t).mark = (ownVisit f remaining stack' m d' t').mark := by
  refine Prod.ext hdepth ?_
  change n.item.type? = m.item.type?
  rw [← n.item.type?_shell, h.shell_eq, m.item.type?_shell]

def marks (f : Format) (remaining : Nat) (stack : Stack) (n : Node) (d : Dependencies) :
    List (Nat × Option TypeRef) :=
  ((dispatcher f).visits remaining stack false n d).map Visit.mark

theorem map_mark_visitsOf {asks : List Ask} (hall : ∀ a ∈ asks, a.all = false) :
    (visitsOf f remaining stack n asks).map Visit.mark =
      asks.flatMap fun a => marks f remaining (stack.push n) a.node a.before := by
  unfold visitsOf marks
  rw [List.map_flatMap]
  refine List.flatMap_congr fun a ha => ?_
  rw [hall a ha]

theorem perm_marks (h : Rearranged n.item m.item) (hfile : n.kind ≠ .file)
    (hmarkup : n.kind.isMarkup = false) (hn : n.item.rank < remaining)
    (hm : m.item.rank < remaining) (hdepth : stack.depth = stack'.depth)
    (hparent : stack.top?.map Node.kind = stack'.top?.map Node.kind)
    (hnenclosed : Enclosed stack n) (hmenclosed : Enclosed stack' m) :
    (marks f remaining stack n d).Perm (marks f remaining stack' m d') := by
  induction remaining generalizing stack stack' n m d d' with
  | zero => exact absurd hn (Nat.not_lt_zero _)
  | succ remaining ih =>
    have hkind : n.kind = m.kind := h.kind_eq
    have hmmarkup : m.kind.isMarkup = false := hkind ▸ hmarkup
    have hmfile : m.kind ≠ .file := hkind ▸ hfile
    obtain ⟨t, ht⟩ := exists_transform hmarkup
    obtain ⟨t', ht'⟩ := exists_transform hmmarkup
    unfold marks
    rw [visits_of_transform _ _ _ _ _ ht, visits_of_transform _ _ _ _ _ ht', List.map_cons,
      List.map_cons, mark_ownVisit h hdepth t t',
      map_mark_visitsOf fun a ha => (asks_script hfile ha).1,
      map_mark_visitsOf fun a ha => (asks_script hmfile ha).1]
    refine .cons _ (Rearranged.Lists.perm_flatMap (f := fun a : Ask => a.node.item) ?_ ?_)
    · rw [map_item_asks hfile hmarkup (Nat.le_of_lt_succ hn) hnenclosed,
        map_item_asks hmfile hmmarkup (Nat.le_of_lt_succ hm) hmenclosed, hparent]
      exact Item.lists_children h _
    · intro a ha b hb hab
      obtain ⟨-, hamarkup, harank⟩ := asks_lower hmarkup ha
      obtain ⟨-, hbmarkup, hbrank⟩ := asks_lower hmmarkup hb
      have haholds := (asks_script hfile ha).2
      have hbholds := (asks_script hmfile hb).2
      refine ih hab (Item.ne_file_of_holds haholds) hamarkup (by omega) (by omega) ?_ ?_
        (enclosed_of_holds haholds) (enclosed_of_holds hbholds)
      · rw [Stack.depth_push, Stack.depth_push, hdepth]
      · rw [Stack.top?_push, Stack.top?_push, Option.map_some, Option.map_some, hkind]

/-! Files. -/

variable {x y : File} {place place' : Place}

theorem rank_lt_of_renders {i : Item} (h : x.Renders i) : i.rank < (Item.file x).rank := by
  rcases h with h | ⟨name, rfl⟩
  · exact Item.rank_lt_of_holds h
  · simp only [Item.rank, Item.file.sizeOf_spec]
    omega

theorem isMarkup_of_renders {i : Item} (h : x.Renders i) : i.kind.isMarkup = false := by
  rcases h with h | ⟨name, rfl⟩
  · exact Item.isMarkup_of_holds h
  · rfl

theorem ne_constructor_of_renders {i : Item} (h : x.Renders i) : i.kind ≠ .constructor := by
  rcases h with h | ⟨name, rfl⟩
  · exact fun hi => nomatch Item.family_of_holds_constructor h hi
  · nofun

/-- What two files render makes up the same marks, if it corresponds. -/
theorem perm_visitsOf {asks asks' : List Ask}
    (hlists : Rearranged.Lists (asks.map (·.node.item)) (asks'.map (·.node.item)))
    (hasks : ∀ a ∈ asks, a.all = false ∧ x.Renders a.node.item)
    (hasks' : ∀ a ∈ asks', a.all = false ∧ y.Renders a.node.item)
    (hx : (Item.file x).rank ≤ remaining) (hy : (Item.file y).rank ≤ remaining)
    (hdepth : stack.depth = stack'.depth) :
    ((visitsOf f remaining stack ⟨.file x, place⟩ asks).map Visit.mark).Perm
      ((visitsOf f remaining stack' ⟨.file y, place'⟩ asks').map Visit.mark) := by
  rw [map_mark_visitsOf fun a ha => (hasks a ha).1, map_mark_visitsOf fun a ha => (hasks' a ha).1]
  refine Rearranged.Lists.perm_flatMap (f := fun a : Ask => a.node.item) hlists ?_
  intro a ha b hb hab
  have harenders := (hasks a ha).2
  have hbrenders := (hasks' b hb).2
  have harank := rank_lt_of_renders harenders
  have hbrank := rank_lt_of_renders hbrenders
  refine perm_marks hab (File.ne_file_of_renders harenders) (isMarkup_of_renders harenders)
    (by omega) (by omega) ?_ rfl ?_ ?_
  · rw [Stack.depth_push, Stack.depth_push, hdepth]
  · exact fun h => absurd h (ne_constructor_of_renders harenders)
  · exact fun h => absurd h (ne_constructor_of_renders hbrenders)

def trailer (n : Node) (x : File) (classes : List String) : Script FileText := do
  let imports ← importBlock n
  let staticImports ← staticImports n x.imports
  let javadoc ← comment n x
  return { javadoc := javadoc.getD "", package := x.package?, imports, staticImports, classes }

theorem content_eq (n : Node) (x : File) :
    content n x = texts (n.parts .classes (x.classes.map .ofTypeDecl)) >>= trailer n x := rfl

/-- The items that are rendered after the classes of a file, when some names are loaded. -/
def trailing (x : File) (loaded : List String) : List Item :=
  loaded.map (fun name => .importDecl { type := .ofName name })
    ++ ((x.imports.filter (·.isStatic)).map .importDecl ++ x.javadoc.toList.map .javadoc)

theorem map_item_staticImports (imports : List Import) {nodes : List Node}
    (h : nodes.map (·.item) = imports.map .importDecl) :
    ((imports.zip nodes).filterMap fun (i, n) => if i.isStatic then some n else none).map (·.item) =
      (imports.filter (·.isStatic)).map .importDecl := by
  induction imports generalizing nodes with
  | nil => rfl
  | cons i imports ih =>
    cases nodes with
    | nil => exact nomatch h
    | cons n nodes =>
      rw [List.map_cons, List.map_cons, List.cons.injEq] at h
      rw [List.zip_cons_cons]
      cases hi : i.isStatic with
      | true =>
        rw [List.filterMap_cons_some (b := n) (by simp [hi]), List.filter_cons_of_pos hi,
          List.map_cons, List.map_cons, h.1, ih h.2]
      | false =>
        rw [List.filterMap_cons_none (by simp [hi]), List.filter_cons_of_neg (by simp [hi])]
        exact ih h.2

theorem run_trailer (x : File) (classes : List String) (d : Dependencies) :
    ((trailer n x classes).run (below f remaining stack n) d).2 = d
      ∧ ((trailer n x classes).asks (below f remaining stack n) d).map (·.node.item) =
        trailing x d.loaded := by
  unfold trailer
  simp only [run_monadBind, asks_monadBind, run_importBlock, run_staticImports, run_comment,
    run_pure, asks_pure, List.append_nil, List.map_append, true_and]
  unfold trailing
  congr 1
  · unfold importBlock
    rw [asks_dependencies_bind, map_item_asks_texts, map_item_parts]
  congr 1
  · unfold staticImports
    dsimp only
    rw [map_item_asks_texts, map_item_staticImports _ (map_item_parts _ _ _)]
  · unfold comment
    cases x.javadoc <;> rfl

theorem type?_visits {v : Visit}
    (h : n.kind = .importDecl ∨ n.kind = .javadoc ∨ n.kind = .javadocTag)
    (hv : v ∈ (dispatcher f).visits remaining stack false n d) : v.node.item.type? = none := by
  induction remaining generalizing stack n d with
  | zero => exact absurd hv List.not_mem_nil
  | succ remaining ih =>
    obtain ⟨item, place⟩ := n
    rcases (Binding.mem_visits_succ (b := binding)).1 hv with ⟨t, -, rfl⟩ | ⟨a, ha, hv⟩
    · cases item with
      | type => exact absurd h (by simp [Node.kind, Item.kind])
      | _ => rfl
    · have hfile : Node.kind ⟨item, place⟩ ≠ .file := by
        rintro hfile
        simp [hfile] at h
      obtain ⟨hall, hholds⟩ := asks_script hfile ha
      rw [hall] at hv
      refine ih ?_ hv
      cases item with
      | javadoc j =>
        obtain ⟨t, -, heq⟩ := List.mem_map.1 ((Item.holds_iff.1 hholds).resolve_left List.not_mem_nil)
        exact .inr (.inr (congrArg Item.kind heq.symm))
      | importDecl => exact absurd hholds List.not_mem_nil
      | javadocTag => exact absurd hholds List.not_mem_nil
      | value v => cases v <;> simp [Node.kind, Item.kind, Value.kind] at h
      | _ => simp [Node.kind, Item.kind] at h

theorem type?_visitsOf_trailing {loaded : List String} {asks : List Ask}
    (hitems : asks.map (·.node.item) = trailing x loaded) (hall : ∀ a ∈ asks, a.all = false)
    {v : Visit} (hv : v ∈ visitsOf f remaining stack ⟨.file x, place⟩ asks) :
    v.node.item.type? = none := by
  obtain ⟨a, ha, hv⟩ := List.mem_flatMap.1 hv
  rw [hall a ha] at hv
  refine type?_visits ?_ hv
  have hitem : a.node.item ∈ trailing x loaded := by
    rw [← hitems]
    exact List.mem_map_of_mem ha
  simp only [trailing, List.mem_append, List.mem_map] at hitem
  rcases hitem with ⟨name, -, heq⟩ | ⟨i, -, heq⟩ | ⟨j, -, heq⟩
  · exact .inl (congrArg Item.kind heq.symm)
  · exact .inl (congrArg Item.kind heq.symm)
  · exact .inr (.inl (congrArg Item.kind heq.symm))

section

variable (f : Format) (remaining : Nat) (stack : Stack) (x : File) (place : Place)
  (d : Dependencies)

def classAsks : List Ask :=
  let n : Node := ⟨.file x, place⟩
  (texts (n.parts .classes (x.classes.map .ofTypeDecl))).asks (below f remaining stack n)
    (x.opened d)

theorem map_item_classAsks :
    (classAsks f remaining stack x place d).map (·.node.item) = (Item.file x).slot .classes := by
  unfold classAsks
  dsimp only
  rw [map_item_asks_texts, map_item_parts]
  rfl

/-- The visits below a file are those of its classes, and then those of what it renders from the
settled names. -/
theorem body_eq : ∃ asks : List Ask,
    body f remaining stack x place d =
      visitsOf f remaining stack ⟨.file x, place⟩ (classAsks f remaining stack x place d ++ asks)
    ∧ asks.map (·.node.item) = trailing x (settled f remaining stack x place d).loaded
    ∧ ∀ a ∈ classAsks f remaining stack x place d ++ asks,
      a.all = false ∧ x.Renders a.node.item := by
  have hasks := fun a => asks_content (n := ⟨.file x, place⟩) x
    (c := below f remaining stack ⟨.file x, place⟩) (d := x.opened d) (a := a)
  unfold body settled
  dsimp only
  rw [content_eq] at hasks ⊢
  rw [asks_monadBind] at hasks ⊢
  rw [run_monadBind]
  refine ⟨_, rfl, ?_, hasks⟩
  rw [(run_trailer x _ _).2, (run_trailer x _ _).1]

end

theorem references_body :
    (body f remaining stack x place d).filterMap (·.reference?) =
      (visitsOf f remaining stack ⟨.file x, place⟩
        (classAsks f remaining stack x place d)).filterMap (·.reference?) := by
  obtain ⟨asks, hbody, hitems, hasks⟩ := body_eq f remaining stack x place d
  have hnone :
      (visitsOf f remaining stack ⟨.file x, place⟩ asks).filterMap (·.reference?) = [] := by
    refine List.filterMap_eq_nil_iff.2 fun v hv => ?_
    have hall : ∀ a ∈ asks, a.all = false := fun a ha => (hasks a (List.mem_append_right _ ha)).1
    rw [v.reference?_eq, type?_visitsOf_trailing hitems hall hv, Option.map_none]
  rw [hbody, visitsOf, List.flatMap_append, List.filterMap_append]
  rw [visitsOf] at hnone
  rw [hnone, List.append_nil, visitsOf]

/-! Rearranged files. -/

theorem name?_ofTypeDecl (d : TypeDecl) : (Item.ofTypeDecl d).name? = some d.name := by
  cases d <;> rfl

theorem slot_classes_ofTypeDecl (d : TypeDecl) :
    (Item.ofTypeDecl d).slot .classes = d.classes.map .ofTypeDecl := by
  cases d <;> rfl

theorem declaredNames_eq_flatMap (package : Option String) (ds : List TypeDecl) :
    TypeDecl.declaredNames package ds = ds.flatMap (·.qualifiedNames package) := by
  induction ds with
  | nil => rfl
  | cons d ds ih => rw [TypeDecl.declaredNames, ih, List.flatMap_cons]

theorem perm_qualifiedNames {a b : TypeDecl} (h : Rearranged (.ofTypeDecl a) (.ofTypeDecl b))
    (package : Option String) : (a.qualifiedNames package).Perm (b.qualifiedNames package) := by
  have hname : a.name = b.name := by
    have heq := congrArg Item.name? h.shell_eq
    rw [Item.name?_shell, Item.name?_shell, name?_ofTypeDecl, name?_ofTypeDecl] at heq
    exact Option.some.inj heq
  have hclasses := h.lists_slot .classes
  rw [slot_classes_ofTypeDecl, slot_classes_ofTypeDecl] at hclasses
  rw [a.qualifiedNames_eq, b.qualifiedNames_eq, declaredNames_eq_flatMap, declaredNames_eq_flatMap,
    hname]
  refine .append_right _ (hclasses.perm_flatMap fun a' ha' b' _ h' => ?_)
  have hlt : sizeOf a' < sizeOf a := (List.sizeOf_lt_of_mem ha').trans a.sizeOf_classes_lt
  exact perm_qualifiedNames h' _
termination_by sizeOf a

theorem package?_eq_of_rearranged (h : Rearranged (.file x) (.file y)) :
    x.package? = y.package? := by
  have heq := congrArg Item.name? h.shell_eq
  unfold File.package?
  rw [Option.some.inj (heq : some x.name = some y.name)]

theorem perm_declared (h : Rearranged (.file x) (.file y)) : x.declared.Perm y.declared := by
  unfold File.declared
  rw [declaredNames_eq_flatMap, declaredNames_eq_flatMap, package?_eq_of_rearranged h]
  exact (h.lists_slot .classes).perm_flatMap fun _ _ _ _ h => perm_qualifiedNames h _

theorem perm_imports (h : Rearranged (.file x) (.file y)) : x.imports.Perm y.imports := by
  rw [← List.flatMap_singleton' x.imports, ← List.flatMap_singleton' y.imports]
  refine (h.lists_slot .imports).perm_flatMap fun i _ j _ h => ?_
  obtain rfl : i = j := Item.importDecl.inj h.shell_eq
  exact .refl _

theorem perm_imported (h : Rearranged (.file x) (.file y)) : x.imported.Perm y.imported :=
  ((perm_imports h).filter _).map _

theorem lists_trailing (h : Rearranged (.file x) (.file y)) (loaded : List String) :
    Rearranged.Lists (trailing x loaded) (trailing y loaded) := by
  refine (Rearranged.lists_refl _).append (.append ?_ (h.lists_slot .javadoc))
  exact ⟨_, List.forall₂_same.2 fun i _ => .refl i, ((perm_imports h).filter _).map _⟩

theorem perm_references (h : Rearranged (.file x) (.file y))
    (hx : (Item.file x).rank ≤ remaining) (hy : (Item.file y).rank ≤ remaining) :
    ((body f remaining stack x place d).filterMap (·.reference?)).Perm
      ((body f remaining stack y place' d').filterMap (·.reference?)) := by
  have hreference (vs : List Visit) : vs.filterMap (·.reference?) =
      (vs.map Visit.mark).filterMap fun mark => mark.2.map (·.name) := by
    rw [List.filterMap_map]
    exact List.filterMap_congr fun v _ => v.reference?_eq
  obtain ⟨_, -, -, hasks⟩ := body_eq f remaining stack x place d
  obtain ⟨_, -, -, hasks'⟩ := body_eq f remaining stack y place' d'
  rw [references_body, references_body, hreference, hreference]
  refine (perm_visitsOf ?_ (fun a ha => hasks a (List.mem_append_left _ ha))
    (fun a ha => hasks' a (List.mem_append_left _ ha)) hx hy rfl).filterMap _
  rw [map_item_classAsks, map_item_classAsks]
  exact h.lists_slot .classes

theorem perm_body (h : Rearranged (.file x) (.file y)) (hx : (Item.file x).rank ≤ remaining)
    (hy : (Item.file y).rank ≤ remaining)
    (hloaded : (settled f remaining stack x place d).loaded =
      (settled f remaining stack y place' d').loaded) :
    ((body f remaining stack x place d).map Visit.mark).Perm
      ((body f remaining stack y place' d').map Visit.mark) := by
  obtain ⟨asks, hbody, hitems, hasks⟩ := body_eq f remaining stack x place d
  obtain ⟨asks', hbody', hitems', hasks'⟩ := body_eq f remaining stack y place' d'
  rw [hbody, hbody']
  refine perm_visitsOf ?_ hasks hasks' hx hy rfl
  rw [List.map_append, List.map_append, map_item_classAsks, map_item_classAsks, hitems, hitems',
    hloaded]
  exact (h.lists_slot .classes).append (lists_trailing h _)

end Java

end Scribe
