import Scribe.Model.Node
import Mathlib.Logic.Relation

/-!
What stands directly inside an item. An item is larger than what is inside it, so that going inwards
comes to an end. A file is inside nothing, an import only inside a file, and markup only inside
markup.
-/
namespace Scribe

namespace Kind

def isMarkup : Kind → Bool
  | document | declaration | tag | tagAttribute | text => true
  | _ => false

/-- The kinds that stand inside type declarations, and these themselves. -/
def isPart : Kind → Bool
  | file | importDecl => false
  | k => !k.isMarkup

theorem isMarkup_of_isPart {k : Kind} (h : k.isPart) : k.isMarkup = false := by
  cases k with
  | document | declaration | tag | tagAttribute | text => exact nomatch h
  | _ => rfl

theorem ne_file_of_isPart {k : Kind} (h : k.isPart) : k ≠ .file := by
  rintro rfl
  exact nomatch h

end Kind

namespace Item

def heading (i : Item) : List Item :=
  i.javadoc?.toList.map .javadoc ++ (i.annotations?.getD []).map .annotationUse

def valueContents : Value → List Item
  | .array items => items.map .value
  | .enumConstant t _ => [.type t]
  | .invocation target _ arguments => target.toList.map .type ++ arguments.map .value
  | .anonymous x => [.type x.type] ++ x.arguments.map .value ++ x.fields.map .field
      ++ x.methods.map .method
  | _ => []

@[simp] def contents : Item → List Item
  | file x => x.imports.map .importDecl ++ x.classes.map ofTypeDecl
  | classDecl x => x.generics.map .generic ++ x.supertype.toList.map .type
      ++ x.interfaces.map .type ++ x.fields.map .field ++ x.initializers.map .initializer
      ++ x.constructors.map .constructor ++ x.methods.map .method ++ x.classes.map ofTypeDecl
  | interfaceDecl x => x.generics.map .generic ++ x.interfaces.map .type ++ x.fields.map .field
      ++ x.methods.map .method ++ x.classes.map ofTypeDecl
  | enumDecl x => x.interfaces.map .type ++ x.constants.map .enumConstant ++ x.fields.map .field
      ++ x.initializers.map .initializer ++ x.constructors.map .constructor
      ++ x.methods.map .method ++ x.classes.map ofTypeDecl
  | annotationDecl x => x.fields.map .field
  | enumConstant x => x.values.map .value ++ x.fields.map .field ++ x.methods.map .method
  | method x => x.generics.map .generic ++ [.type x.type] ++ x.fields.map .field
      ++ x.exceptions.map .type
  | constructor x => x.fields.map .field ++ x.exceptions.map .type
  | field x => [.type x.type] ++ x.value.toList.map .value
  | generic x => x.bounds.map .type
  | javadoc x => x.tags.map .javadocTag
  | annotationUse x => [.type x.type] ++ x.value.toList.map .value
      ++ x.values.map fun v => .value v.value
  | type x => x.arguments.map ofArgument
  | value x => valueContents x
  | document x => x.elements.map ofElement
  | tag x => x.attributes.map .tagAttribute ++ x.children.map ofElement
  | importDecl _ | javadocTag _ | initializer _ | declaration _ | tagAttribute _ | text _ => []

def inside (i : Item) : List Item := i.heading ++ i.contents

def Holds (i m : Item) : Prop := m ∈ i.inside

@[simp] theorem holds_iff {i m : Item} : i.Holds m ↔ m ∈ i.heading ∨ m ∈ i.contents :=
  List.mem_append

/-- `m` is `i` itself or stands somewhere inside it. -/
def Within (i m : Item) : Prop := Relation.ReflTransGen Holds i m

/-! Sizes. -/

theorem sizeOf_ofTypeDecl (d : TypeDecl) : sizeOf (ofTypeDecl d) = sizeOf d := by
  cases d <;> simp [ofTypeDecl]

theorem sizeOf_ofArgument (a : TypeArgument) : sizeOf (ofArgument a) = sizeOf a := by
  cases a <;> simp [ofArgument]

theorem sizeOf_ofElement (e : Element) : sizeOf (ofElement e) = sizeOf e := by
  cases e <;> simp [ofElement]

theorem sizeOf_namedValue (v : NamedValue) : sizeOf v.value < sizeOf v := by
  cases v
  simp only [NamedValue.mk.sizeOf_spec]
  omega

theorem sizeOf_lt_of_mem_heading {i m : Item} (h : m ∈ i.heading) : sizeOf m < sizeOf i := by
  revert m
  cases i with
  | file x | classDecl x | interfaceDecl x | enumDecl x | annotationDecl x | enumConstant x
  | method x | constructor x | field x =>
    cases x
    simp [heading, javadoc?, annotations?, or_imp, forall_and]
    grind [→ List.sizeOf_lt_of_mem, Option.some.sizeOf_spec]
  | _ => simp [heading, javadoc?, annotations?]

theorem sizeOf_lt_of_mem_valueContents {v : Value} {m : Item} (h : m ∈ valueContents v) :
    sizeOf m < sizeOf (value v) := by
  revert m
  cases v with
  | anonymous x =>
    cases x
    simp [valueContents, or_imp, forall_and]
    grind [→ List.sizeOf_lt_of_mem]
  | array | enumConstant | invocation =>
    simp [valueContents, or_imp, forall_and]
    grind [→ List.sizeOf_lt_of_mem, Option.some.sizeOf_spec]
  | _ => simp [valueContents]

theorem sizeOf_lt_of_mem_contents {i m : Item} (h : m ∈ i.contents) : sizeOf m < sizeOf i := by
  cases i with
  | value v => exact sizeOf_lt_of_mem_valueContents h
  | importDecl x | javadocTag x | initializer x | declaration x | tagAttribute x | text x =>
    exact nomatch h
  | file x | classDecl x | interfaceDecl x | enumDecl x | annotationDecl x | enumConstant x
  | method x | constructor x | field x | generic x | javadoc x | annotationUse x | type x
  | document x | tag x =>
    revert m
    cases x
    simp [or_imp, forall_and, sizeOf_ofTypeDecl, sizeOf_ofArgument, sizeOf_ofElement]
    grind [→ List.sizeOf_lt_of_mem, Option.some.sizeOf_spec, sizeOf_namedValue]

theorem sizeOf_lt_of_holds {i m : Item} (h : i.Holds m) : sizeOf m < sizeOf i := by
  rcases holds_iff.1 h with h | h
  · exact sizeOf_lt_of_mem_heading h
  · exact sizeOf_lt_of_mem_contents h

/-- Imports come last, for a file asks for one of each loaded name. -/
noncomputable def rank : Item → Nat
  | importDecl _ => 0
  | i => sizeOf i

theorem rank_le (i : Item) : i.rank ≤ sizeOf i := by
  cases i <;> simp [rank]

theorem rank_lt_of_holds {i m : Item} (h : i.Holds m) : m.rank < i.rank := by
  have hlt := Nat.lt_of_le_of_lt m.rank_le (sizeOf_lt_of_holds h)
  cases i with
  | importDecl => simp [heading, javadoc?, annotations?] at h
  | _ => exact hlt

/-! Kinds. -/

theorem isPart_value (v : Value) : v.kind.isPart = true := by cases v <;> rfl

theorem isPart_ofTypeDecl (d : TypeDecl) : (ofTypeDecl d).kind.isPart = true := by cases d <;> rfl

theorem isPart_ofArgument (a : TypeArgument) : (ofArgument a).kind.isPart = true := by
  cases a <;> rfl

theorem isMarkup_ofElement (e : Element) : (ofElement e).kind.isMarkup = true := by
  cases e <;> rfl

theorem isPart_of_mem_heading {i m : Item} (h : m ∈ i.heading) : m.kind.isPart := by
  simp only [heading, List.mem_append, List.mem_map] at h
  rcases h with ⟨j, -, rfl⟩ | ⟨u, -, rfl⟩ <;> rfl

theorem kind_of_mem_contents {i m : Item} (h : m ∈ i.contents) :
    m.kind.isPart ∧ i.kind.isMarkup = false ∨ m.kind = .importDecl ∧ i.kind = .file
      ∨ m.kind.isMarkup ∧ i.kind.isMarkup := by
  cases i with
  | file x =>
    simp only [contents, List.mem_append, List.mem_map] at h
    rcases h with ⟨i, -, rfl⟩ | ⟨d, -, rfl⟩
    · exact .inr (.inl ⟨rfl, rfl⟩)
    · exact .inl ⟨isPart_ofTypeDecl d, rfl⟩
  | document x =>
    obtain ⟨e, -, rfl⟩ := List.mem_map.1 h
    exact .inr (.inr ⟨isMarkup_ofElement e, rfl⟩)
  | tag x =>
    simp only [contents, List.mem_append, List.mem_map] at h
    rcases h with ⟨a, -, rfl⟩ | ⟨e, -, rfl⟩
    · exact .inr (.inr ⟨rfl, rfl⟩)
    · exact .inr (.inr ⟨isMarkup_ofElement e, rfl⟩)
  | importDecl | declaration | tagAttribute | text => exact nomatch h
  | value v =>
    refine .inl ⟨?_, Kind.isMarkup_of_isPart (isPart_value v)⟩
    cases v <;> grind [contents, valueContents, kind, Kind.isPart, Kind.isMarkup, isPart_value]
  | _ =>
    refine .inl ⟨?_, rfl⟩
    grind [contents, kind, Kind.isPart, Kind.isMarkup, isPart_value, isPart_ofTypeDecl,
      isPart_ofArgument]

theorem kind_of_holds {i m : Item} (h : i.Holds m) :
    m.kind.isPart ∧ i.kind.isMarkup = false ∨ m.kind = .importDecl ∧ i.kind = .file
      ∨ m.kind.isMarkup ∧ i.kind.isMarkup := by
  rcases holds_iff.1 h with h | h
  · refine .inl ⟨isPart_of_mem_heading h, ?_⟩
    cases i with
    | value v => exact Kind.isMarkup_of_isPart (isPart_value v)
    | document | declaration | tag | tagAttribute | text => exact nomatch h
    | _ => rfl
  · exact kind_of_mem_contents h

theorem isPart_of_holds {i m : Item} (hi : i.kind.isPart) (h : i.Holds m) : m.kind.isPart := by
  rcases kind_of_holds h with h | h | h
  · exact h.1
  · exact absurd h.2 (Kind.ne_file_of_isPart hi)
  · exact absurd h.2 (by simp [Kind.isMarkup_of_isPart hi])

theorem isMarkup_of_holds {i m : Item} (h : i.Holds m) : m.kind.isMarkup = i.kind.isMarkup := by
  rcases kind_of_holds h with ⟨hm, hi⟩ | ⟨hm, hi⟩ | ⟨hm, hi⟩
  · rw [Kind.isMarkup_of_isPart hm, hi]
  · rw [hm, hi]
    rfl
  · rw [hm, hi]

theorem ne_file_of_holds {i m : Item} (h : i.Holds m) : m.kind ≠ .file := by
  intro hfile
  rcases kind_of_holds h with h | h | h <;> rw [hfile] at h
  · exact nomatch h.1
  · exact nomatch h.1
  · exact nomatch h.1

end Item

end Scribe
