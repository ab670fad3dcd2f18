import Scribe.Proofs.Model.Inside
import Mathlib.Data.List.Perm.Basic

/-!
Models that differ in the order of their parts. The order of imports, of declarations and their
members, of parameters and of annotations is a matter of taste to whoever builds a model; all else,
such as the arguments of a type or of a call, stands where it stands.
-/
namespace Scribe

namespace Slot

/-- What a slot holds may stand in any order. -/
def isLoose : Slot → Bool
  | annotations | constants | fields | initializers | constructors | methods | classes
  | imports => true
  | _ => false

end Slot

namespace Item

/-- The parts of an item that a slot holds. Markup is no part of it: its order has a meaning. -/
def slot : Item → Slot → List Item
  | file x => fun
    | .javadoc => x.javadoc.toList.map .javadoc
    | .imports => x.imports.map .importDecl
    | .classes => x.classes.map ofTypeDecl
    | _ => []
  | classDecl x => fun
    | .javadoc => x.javadoc.toList.map .javadoc
    | .annotations => x.annotations.map .annotationUse
    | .generics => x.generics.map .generic
    | .supertype => x.supertype.toList.map .type
    | .interfaces => x.interfaces.map .type
    | .fields => x.fields.map .field
    | .initializers => x.initializers.map .initializer
    | .constructors => x.constructors.map .constructor
    | .methods => x.methods.map .method
    | .classes => x.classes.map ofTypeDecl
    | _ => []
  | interfaceDecl x => fun
    | .javadoc => x.javadoc.toList.map .javadoc
    | .annotations => x.annotations.map .annotationUse
    | .generics => x.generics.map .generic
    | .interfaces => x.interfaces.map .type
    | .fields => x.fields.map .field
    | .methods => x.methods.map .method
    | .classes => x.classes.map ofTypeDecl
    | _ => []
  | enumDecl x => fun
    | .javadoc => x.javadoc.toList.map .javadoc
    | .annotations => x.annotations.map .annotationUse
    | .interfaces => x.interfaces.map .type
    | .constants => x.constants.map .enumConstant
    | .fields => x.fields.map .field
    | .initializers => x.initializers.map .initializer
    | .constructors => x.constructors.map .constructor
    | .methods => x.methods.map .method
    | .classes => x.classes.map ofTypeDecl
    | _ => []
  | annotationDecl x => fun
    | .javadoc => x.javadoc.toList.map .javadoc
    | .annotations => x.annotations.map .annotationUse
    | .fields => x.fields.map .field
    | _ => []
  | enumConstant x => fun
    | .javadoc => x.javadoc.toList.map .javadoc
    | .values => x.values.map .value
    | .fields => x.fields.map .field
    | .methods => x.methods.map .method
    | _ => []
  | method x => fun
    | .javadoc => x.javadoc.toList.map .javadoc
    | .annotations => x.annotations.map .annotationUse
    | .generics => x.generics.map .generic
    | .type => [Item.type x.type]
    | .fields => x.fields.map .field
    | .exceptions => x.exceptions.map .type
    | _ => []
  | constructor x => fun
    | .javadoc => x.javadoc.toList.map .javadoc
    | .annotations => x.annotations.map .annotationUse
    | .fields => x.fields.map .field
    | .exceptions => x.exceptions.map .type
    | _ => []
  | field x => fun
    | .javadoc => x.javadoc.toList.map .javadoc
    | .annotations => x.annotations.map .annotationUse
    | .type => [Item.type x.type]
    | .value => x.value.toList.map .value
    | _ => []
  | generic x => fun
    | .bounds => x.bounds.map .type
    | _ => []
  | javadoc x => fun
    | .tags => x.tags.map .javadocTag
    | _ => []
  | annotationUse x => fun
    | .type => [Item.type x.type]
    | .value => x.value.toList.map .value
    | .values => x.values.map fun v => .value v.value
    | _ => []
  | type x => fun
    | .arguments => x.arguments.map ofArgument
    | _ => []
  | value (.array items) => fun
    | .values => items.map .value
    | _ => []
  | value (.enumConstant t _) => fun
    | .type => [Item.type t]
    | _ => []
  | value (.invocation target _ arguments) => fun
    | .type => target.toList.map .type
    | .arguments => arguments.map .value
    | _ => []
  | value (.anonymous x) => fun
    | .type => [Item.type x.type]
    | .arguments => x.arguments.map .value
    | .fields => x.fields.map .field
    | .methods => x.methods.map .method
    | _ => []
  | _ => fun _ => []

theorem holds_of_mem_slot {i m : Item} {s : Slot} (h : m ∈ i.slot s) : i.Holds m := by
  rw [holds_iff]
  cases i with
  | value v => cases v <;> cases s <;> simp_all [slot, valueContents]
  | importDecl | javadocTag | initializer | document | declaration | tag | tagAttribute | text =>
    exact absurd h List.not_mem_nil
  | _ => cases s <;> simp_all [slot, heading, javadoc?, annotations?]

/-- What is left of an item without the parts in which something could stand in another order. -/
def shell : Item → Item
  | file x => .file { x with imports := [], classes := [] }
  | classDecl x => .classDecl { x with
      annotations := [], fields := [], initializers := [], constructors := [], methods := []
      classes := [] }
  | interfaceDecl x => .interfaceDecl { x with
      annotations := [], fields := [], methods := [], classes := [] }
  | enumDecl x => .enumDecl { x with
      annotations := [], constants := [], fields := [], initializers := [], constructors := []
      methods := [], classes := [] }
  | annotationDecl x => .annotationDecl { x with annotations := [], fields := [] }
  | enumConstant x => .enumConstant { x with values := [], fields := [], methods := [] }
  | method x => .method { x with annotations := [], fields := [] }
  | constructor x => .constructor { x with annotations := [], fields := [] }
  | field x => .field { x with annotations := [], value := none }
  | annotationUse x => .annotationUse { x with
      value := none, values := x.values.map fun v => { v with value := .null } }
  | value (.array _) => .value (.array [])
  | value (.invocation target name _) => .value (.invocation target name [])
  | value (.anonymous x) => .value (.anonymous { type := x.type })
  | i => i

theorem kind_shell (i : Item) : i.shell.kind = i.kind := by
  cases i with
  | value v => cases v <;> rfl
  | _ => rfl

theorem name?_shell (i : Item) : i.shell.name? = i.name? := by
  cases i with
  | value v => cases v <;> rfl
  | _ => rfl

end Item

/-- Two items are alike but for the order of what their loose slots hold, and so on inside them. -/
inductive Rearranged : Item → Item → Prop
  | intro {i j : Item} (shell : i.shell = j.shell) (order : Slot → List Item)
    (parts : ∀ s, List.Forall₂ Rearranged (i.slot s) (order s))
    (perm : ∀ s, (order s).Perm (j.slot s))
    (fixed : ∀ s, s.isLoose = false → order s = j.slot s) : Rearranged i j

namespace Rearranged

variable {i j : Item}

/-- Lists of items that correspond in some order. -/
def Lists : List Item → List Item → Prop := Relation.Comp (List.Forall₂ Rearranged) List.Perm

theorem shell_eq (h : Rearranged i j) : i.shell = j.shell := by
  cases h with
  | intro shell => exact shell

theorem kind_eq (h : Rearranged i j) : i.kind = j.kind := by
  rw [← i.kind_shell, h.shell_eq, j.kind_shell]

theorem lists_slot (h : Rearranged i j) (s : Slot) : Lists (i.slot s) (j.slot s) := by
  cases h with
  | intro shell order parts perm => exact ⟨order s, parts s, perm s⟩

theorem refl (i : Item) : Rearranged i i := by
  refine .intro rfl i.slot (fun s => ?_) (fun s => .refl _) fun s _ => rfl
  refine List.forall₂_same.2 fun m hm => ?_
  have := Item.rank_lt_of_holds (Item.holds_of_mem_slot hm)
  exact refl m
termination_by i.rank

theorem of_perm (shell : i.shell = j.shell) (perm : ∀ s, (i.slot s).Perm (j.slot s))
    (fixed : ∀ s, s.isLoose = false → i.slot s = j.slot s) : Rearranged i j :=
  .intro shell i.slot (fun _ => List.forall₂_same.2 fun m _ => .refl m) perm fixed

theorem Lists.append {is is' js js' : List Item} (h : Lists is js) (h' : Lists is' js') :
    Lists (is ++ is') (js ++ js') := by
  obtain ⟨order, hparts, hperm⟩ := h
  obtain ⟨order', hparts', hperm'⟩ := h'
  exact ⟨order ++ order', List.rel_append hparts hparts', hperm.append hperm'⟩

theorem lists_refl (is : List Item) : Lists is is :=
  ⟨is, List.forall₂_same.2 fun i _ => .refl i, .refl is⟩

theorem lists_flatMap (h : Rearranged i j) (slots : List Slot) :
    Lists (slots.flatMap i.slot) (slots.flatMap j.slot) := by
  induction slots with
  | nil => exact ⟨[], .nil, .nil⟩
  | cons s slots ih => exact (h.lists_slot s).append ih

/-- What is read off each of corresponding items makes up the same in all, but for its order. -/
theorem Lists.perm_flatMap {f : α → Item} {g g' : α → List β} {as as' : List α}
    (h : Lists (as.map f) (as'.map f))
    (hg : ∀ a ∈ as, ∀ a' ∈ as', Rearranged (f a) (f a') → (g a).Perm (g' a')) :
    (as.flatMap g).Perm (as'.flatMap g') := by
  obtain ⟨order, hparts, hperm⟩ := h
  rw [List.forall₂_map_left_iff] at hparts
  obtain ⟨bs, hbs, horder⟩ : ∃ bs : List α, List.Perm bs as' ∧ order = bs.map f := by
    obtain ⟨bs, hbs, heq⟩ := List.perm_comp_forall₂ hperm
      (List.forall₂_map_left_iff.2 (List.forall₂_same.2 fun a _ => rfl) :
        List.Forall₂ (fun i a => i = f a) (as'.map f) as')
    refine ⟨bs, heq, ?_⟩
    rw [← List.forall₂_eq_eq_eq, List.forall₂_map_right_iff]
    exact hbs
  rw [horder, List.forall₂_map_right_iff] at hparts
  refine .trans ?_ (hbs.flatMap_right g')
  have hmem : ∀ b ∈ bs, b ∈ as' := fun b hb => hbs.subset hb
  clear hbs horder hperm
  induction hparts with
  | nil => exact .nil
  | @cons a b as bs hab _ ih =>
    rw [List.flatMap_cons, List.flatMap_cons]
    refine (hg a (by simp) b (hmem b (by simp)) hab).append (ih ?_ ?_)
    · exact fun a' ha' b' hb' => hg a' (by simp [ha']) b' hb'
    · exact fun b' hb' => hmem b' (by simp [hb'])

end Rearranged

end Scribe
