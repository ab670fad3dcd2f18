import Scribe.Proofs.Java.Varargs
import Scribe.Proofs.Model.Datum

/-!
Implied modifiers. What stands directly in a declaration has some modifiers whether they are written
or not; a tree is the same to all who read it with and without them. Without them it is bare, and
two trees that are the same when bare differ in nothing but implied modifiers.
-/
namespace Scribe

theorem Kind.family_eq_typeDecl {k : Kind} :
    k.family = some .typeDecl ↔ k ∈ [classDecl, interfaceDecl, enumDecl, annotationDecl] := by
  cases k <;> decide

namespace Java

/-- The modifiers that what is directly around an item implies for it, by the kinds of both. -/
inductive Implied : (outer : Option Kind) → (inner : Kind) → Modifier → Prop
  | interfaceMethod {m : Modifier} (h : m ∈ [.publicAccess, .abstract]) :
    Implied (some .interfaceDecl) .method m
  | interfaceField {m : Modifier} (h : m ∈ [.publicAccess, .static, .final]) :
    Implied (some .interfaceDecl) .field m
  | interfaceType {inner : Kind} {m : Modifier} (hinner : inner.family = some .typeDecl)
    (h : m ∈ [.publicAccess, .static]) : Implied (some .interfaceDecl) inner m
  | element {m : Modifier} (h : m ∈ [.publicAccess, .abstract]) :
    Implied (some .annotationDecl) .field m
  | enumConstructor : Implied (some .enumDecl) .constructor .privateAccess
  | nestedType {outer inner : Kind} (houter : outer.family = some .typeDecl)
    (hinner : inner ∈ [.interfaceDecl, .enumDecl, .annotationDecl]) :
    Implied (some outer) inner .static

theorem Implied.mem {outer inner : Kind} {m : Modifier} (h : Implied (some outer) inner m) :
    m ∈ impliedModifiers outer inner := by
  cases h with
  | interfaceMethod h | interfaceField h | element h => exact h
  | interfaceType hinner h =>
    have hinner := Kind.family_eq_typeDecl.1 hinner
    simp only [List.mem_cons, List.not_mem_nil, or_false] at hinner
    rcases hinner with rfl | rfl | rfl | rfl <;> exact h
  | enumConstructor => exact List.mem_singleton.2 rfl
  | nestedType houter hinner =>
    have houter := Kind.family_eq_typeDecl.1 houter
    simp only [List.mem_cons, List.not_mem_nil, or_false] at houter hinner
    rcases houter with rfl | rfl | rfl | rfl <;> rcases hinner with rfl | rfl | rfl <;> decide

theorem implied_of_mem {outer inner : Kind} {m : Modifier} (h : m ∈ impliedModifiers outer inner)
    (hmethod : ¬ (outer = .annotationDecl ∧ inner = .method)) : Implied (some outer) inner m := by
  unfold impliedModifiers at h
  dsimp only at h
  split at h
  · exact .interfaceMethod h
  · exact .interfaceField h
  · exact .element h
  · exact absurd ⟨rfl, rfl⟩ hmethod
  · obtain rfl := List.mem_singleton.1 h
    exact .enumConstructor
  split at h
  next hinterface =>
    simp only [Bool.and_eq_true, beq_iff_eq] at hinterface
    obtain ⟨rfl, hinner⟩ := hinterface
    exact .interfaceType hinner h
  split at h
  next hnested =>
    simp only [Bool.and_eq_true, beq_iff_eq, bne_iff_ne] at hnested
    obtain ⟨⟨houter, hinner⟩, hclass⟩ := hnested
    obtain rfl := List.mem_singleton.1 h
    refine .nestedType houter ?_
    exact (List.mem_cons.1 (Kind.family_eq_typeDecl.1 hinner)).resolve_left hclass
  · exact nomatch h

theorem implied_method_iff {outer : Option Kind} {m : Modifier} :
    Implied outer .method m ↔ outer = some .interfaceDecl ∧ m ∈ [.publicAccess, .abstract] := by
  refine ⟨fun h => ?_, fun ⟨houter, hm⟩ => houter ▸ .interfaceMethod hm⟩
  cases h with
  | interfaceMethod h => exact ⟨rfl, h⟩
  | interfaceType hinner => exact absurd hinner (by decide)
  | nestedType _ hinner => exact absurd hinner (by decide)

instance (outer : Option Kind) (inner : Kind) (m : Modifier) : Decidable (Implied outer inner m) :=
  match outer with
  | none => .isFalse nofun
  | some outer =>
    if h : outer = .annotationDecl ∧ inner = .method then
      .isFalse (by simp [h, implied_method_iff])
    else decidable_of_iff (m ∈ impliedModifiers outer inner) ⟨(implied_of_mem · h), Implied.mem⟩

end Java

open Java (Implied)

/-! Bare trees. -/

namespace Modifiers

def without (ms : Modifiers) (p : Modifier → Prop) [DecidablePred p] : Modifiers :=
  .ofList (ms.toList.filter (¬ p ·))

theorem contains_without (ms : Modifiers) (p : Modifier → Prop) [DecidablePred p] (m : Modifier) :
    (ms.without p).contains m = (ms.contains m && !decide (p m)) := by
  have hempty : empty.contains m = false := by simp [empty, contains]
  rw [without, ofList, contains_insertAll, hempty, Bool.false_or, Bool.eq_iff_iff]
  simp [mem_toList]

end Modifiers

def Method.bare (outer : Option Kind) (m : Method) : Method :=
  { m with modifiers := m.modifiers.without (Implied outer .method) }

def Constructor.bare (outer : Option Kind) (c : Constructor) : Constructor :=
  { c with modifiers := c.modifiers.without (Implied outer .constructor) }

def Field.bare (outer : Option Kind) (x : Field) : Field :=
  { x with modifiers := x.modifiers.without (Implied outer .field) }

def AnnotationDecl.bare (outer : Option Kind) (d : AnnotationDecl) : AnnotationDecl :=
  { d with
    modifiers := d.modifiers.without (Implied outer .annotationDecl)
    fields := d.fields.map (·.bare (some .annotationDecl)) }

namespace TypeDecl

mutual

def bare (outer : Option Kind) : TypeDecl → TypeDecl
  | classDecl d@{ classes, .. } => classDecl
    { d with
      modifiers := d.modifiers.without (Implied outer .classDecl)
      fields := d.fields.map (·.bare (some .classDecl))
      constructors := d.constructors.map (·.bare (some .classDecl))
      methods := d.methods.map (·.bare (some .classDecl))
      classes := bareAll (some .classDecl) classes }
  | interfaceDecl d@{ classes, .. } => interfaceDecl
    { d with
      modifiers := d.modifiers.without (Implied outer .interfaceDecl)
      fields := d.fields.map (·.bare (some .interfaceDecl))
      methods := d.methods.map (·.bare (some .interfaceDecl))
      classes := bareAll (some .interfaceDecl) classes }
  | enumDecl d@{ classes, .. } => enumDecl
    { d with
      modifiers := d.modifiers.without (Implied outer .enumDecl)
      fields := d.fields.map (·.bare (some .enumDecl))
      constructors := d.constructors.map (·.bare (some .enumDecl))
      methods := d.methods.map (·.bare (some .enumDecl))
      classes := bareAll (some .enumDecl) classes }
  | annotationDecl d => annotationDecl (d.bare outer)

def bareAll (outer : Option Kind) : List TypeDecl → List TypeDecl
  | [] => []
  | d :: ds => d.bare outer :: bareAll outer ds

end

theorem bareAll_eq_map (outer : Option Kind) (ds : List TypeDecl) :
    bareAll outer ds = ds.map (bare outer) := by
  induction ds with
  | nil => rfl
  | cons d ds ih => rw [bareAll, ih, List.map_cons]

mutual

theorem qualifiedNames_bare (outer : Option Kind) (package : Option String) (d : TypeDecl) :
    (d.bare outer).qualifiedNames package = d.qualifiedNames package := by
  cases d with
  | classDecl d | interfaceDecl d | enumDecl d =>
    cases d
    simp only [bare, qualifiedNames, declaredNames_bareAll]
  | annotationDecl d => rfl

theorem declaredNames_bareAll (outer : Option Kind) (package : Option String) (ds : List TypeDecl) :
    declaredNames package (bareAll outer ds) = declaredNames package ds := by
  cases ds with
  | nil => rfl
  | cons d ds =>
    rw [bareAll, declaredNames, declaredNames, qualifiedNames_bare, declaredNames_bareAll]

end

end TypeDecl

def ClassDecl.bare (outer : Option Kind) (d : ClassDecl) : ClassDecl :=
  { d with
    modifiers := d.modifiers.without (Implied outer .classDecl)
    fields := d.fields.map (·.bare (some .classDecl))
    constructors := d.constructors.map (·.bare (some .classDecl))
    methods := d.methods.map (·.bare (some .classDecl))
    classes := d.classes.map (·.bare (some .classDecl)) }

def InterfaceDecl.bare (outer : Option Kind) (d : InterfaceDecl) : InterfaceDecl :=
  { d with
    modifiers := d.modifiers.without (Implied outer .interfaceDecl)
    fields := d.fields.map (·.bare (some .interfaceDecl))
    methods := d.methods.map (·.bare (some .interfaceDecl))
    classes := d.classes.map (·.bare (some .interfaceDecl)) }

def EnumDecl.bare (outer : Option Kind) (d : EnumDecl) : EnumDecl :=
  { d with
    modifiers := d.modifiers.without (Implied outer .enumDecl)
    fields := d.fields.map (·.bare (some .enumDecl))
    constructors := d.constructors.map (·.bare (some .enumDecl))
    methods := d.methods.map (·.bare (some .enumDecl))
    classes := d.classes.map (·.bare (some .enumDecl)) }

namespace TypeDecl

variable (outer : Option Kind)

theorem bare_classDecl (d : ClassDecl) : (classDecl d).bare outer = classDecl (d.bare outer) := by
  cases d
  rw [bare, bareAll_eq_map]
  rfl

theorem bare_interfaceDecl (d : InterfaceDecl) :
    (interfaceDecl d).bare outer = interfaceDecl (d.bare outer) := by
  cases d
  rw [bare, bareAll_eq_map]
  rfl

theorem bare_enumDecl (d : EnumDecl) : (enumDecl d).bare outer = enumDecl (d.bare outer) := by
  cases d
  rw [bare, bareAll_eq_map]
  rfl

end TypeDecl

namespace Item

variable (outer : Option Kind)

/-- An item without the modifiers that are implied where they stand, directly in something of kind
`outer`. Nothing is implied inside any other item. -/
def bare : Item → Item
  | file x => file { x with classes := x.classes.map (·.bare (some .file)) }
  | classDecl d => classDecl (d.bare outer)
  | interfaceDecl d => interfaceDecl (d.bare outer)
  | enumDecl d => enumDecl (d.bare outer)
  | annotationDecl d => annotationDecl (d.bare outer)
  | method m => method (m.bare outer)
  | constructor c => constructor (c.bare outer)
  | field x => field (x.bare outer)
  | i => i

theorem bare_ofTypeDecl (d : TypeDecl) : (ofTypeDecl d).bare outer = ofTypeDecl (d.bare outer) := by
  cases d with
  | classDecl d => rw [TypeDecl.bare_classDecl]; rfl
  | interfaceDecl d => rw [TypeDecl.bare_interfaceDecl]; rfl
  | enumDecl d => rw [TypeDecl.bare_enumDecl]; rfl
  | annotationDecl d => rfl

theorem kind_bare (i : Item) : (i.bare outer).kind = i.kind := by cases i <;> rfl

theorem name?_bare (i : Item) : (i.bare outer).name? = i.name? := by cases i <;> rfl

end Item

def Node.bare (outer : Option Kind) (n : Node) : Node := { n with item := n.item.bare outer }

end Scribe
