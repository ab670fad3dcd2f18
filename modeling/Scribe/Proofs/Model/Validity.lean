import Scribe.Model.Validation
import Scribe.Proofs.Model.Inside

/-!
What validation accepts. A model passes just when each item that validation comes to passes on its
own. It comes to all that is inside a file but type parameters and what an annotation is given, so
the names there may be anything; and of a file it does not check the package.
-/
namespace Scribe

namespace Validity

@[simp] theorem andThen_eq_ok_iff {a b : Validity} :
    (a >>= fun _ => b) = .ok () ↔ a = .ok () ∧ b = .ok () := by
  cases a with
  | error e => exact iff_of_false nofun (fun h => nomatch h.1)
  | ok u => exact (and_iff_right rfl).symm

theorem eq_forM {checkAll : List α → Validity} {check : α → Validity} (hnil : checkAll [] = .ok ())
    (hcons : ∀ a as, checkAll (a :: as) = (check a >>= fun _ => checkAll as)) (as : List α) :
    checkAll as = forM as check := by
  induction as with
  | nil => exact hnil
  | cons a as ih => rw [hcons, ih, List.forM_cons]

@[simp] theorem forM_list_eq_ok_iff {as : List α} {check : α → Validity} :
    forM as check = .ok () ↔ ∀ a ∈ as, check a = .ok () := by
  induction as with
  | nil => exact iff_of_true rfl nofun
  | cons a as ih => rw [List.forM_cons, andThen_eq_ok_iff, ih, List.forall_mem_cons]

@[simp] theorem forM_option_eq_ok_iff {o : Option α} {check : α → Validity} :
    forM o check = .ok () ↔ ∀ a ∈ o, check a = .ok () := by
  cases o with
  | none => exact iff_of_true rfl nofun
  | some a => simp

end Validity

@[simp] theorem checkIdentifier_eq_ok_iff {kind : Kind} {name : String} :
    checkIdentifier kind name = .ok () ↔ Name.isIdentifier name := by
  unfold checkIdentifier
  split
  · next hempty => exact iff_of_false nofun fun h => Name.isIdentifier_ne_empty h hempty
  · split
    · next hname => exact iff_of_true rfl hname
    · next hname => exact iff_of_false nofun hname

@[simp] theorem checkMarkupName_eq_ok_iff {kind : Kind} {name : String} :
    checkMarkupName kind name = .ok () ↔ Name.isMarkup name := by
  unfold checkMarkupName
  split
  · next hempty => exact iff_of_false nofun fun h => Name.isMarkup_ne_empty h hempty
  · split
    · next hname => exact iff_of_true rfl hname
    · next hname => exact iff_of_false nofun hname

/-! Lists are checked member by member. -/

@[simp] theorem validateTypes_eq_forM (ts : List TypeRef) :
    validateTypes ts = forM ts TypeRef.validate :=
  Validity.eq_forM (by rw [validateTypes]) (fun _ _ => by rw [validateTypes]) ts

@[simp] theorem validateArguments_eq_forM (as : List TypeArgument) :
    validateArguments as = forM as TypeArgument.validate :=
  Validity.eq_forM (by rw [validateArguments]) (fun _ _ => by rw [validateArguments]) as

@[simp] theorem validateAnnotations_eq_ok_iff {us : List AnnotationUse} :
    validateAnnotations us = .ok () ↔ ∀ u ∈ us, u.type.validate = .ok () := by
  rw [validateAnnotations, validateTypes_eq_forM, Validity.forM_list_eq_ok_iff, List.forall_mem_map]

@[simp] theorem validateValues_eq_forM (vs : List Value) :
    validateValues vs = forM vs Value.validate :=
  Validity.eq_forM (by rw [validateValues]) (fun _ _ => by rw [validateValues]) vs

@[simp] theorem validateFields_eq_forM (fs : List Field) :
    validateFields fs = forM fs Field.validate :=
  Validity.eq_forM (by rw [validateFields]) (fun _ _ => by rw [validateFields]) fs

@[simp] theorem validateMethods_eq_forM (ms : List Method) :
    validateMethods ms = forM ms Method.validate :=
  Validity.eq_forM (by rw [validateMethods]) (fun _ _ => by rw [validateMethods]) ms

@[simp] theorem validateDecls_eq_forM (ds : List TypeDecl) :
    validateDecls ds = forM ds TypeDecl.validate :=
  Validity.eq_forM (by rw [validateDecls]) (fun _ _ => by rw [validateDecls]) ds

@[simp] theorem validateElements_eq_forM (es : List Element) :
    validateElements es = forM es Element.validate :=
  Validity.eq_forM (by rw [validateElements]) (fun _ _ => by rw [validateElements]) es

/-! One rule for each part of a model. -/

theorem TypeRef.validate_iff {t : TypeRef} : t.validate = .ok () ↔
    Name.isQualified t.name ∧ ∀ a ∈ t.arguments, a.validate = .ok () := by
  cases t
  rw [TypeRef.validate]
  split
  · next hname => simp [hname]
  · next hname => exact iff_of_false nofun fun h => hname h.1

theorem Generic.validateWildcard_iff {g : Generic} : g.validateWildcard = .ok () ↔
    g.name = none ∧ ∀ t ∈ g.bounds, t.validate = .ok () := by
  obtain ⟨name, bounds, kind⟩ := g
  cases name with
  | none => simp [Generic.validateWildcard]
  | some name => exact iff_of_false nofun fun h => nomatch h.1

theorem Anonymous.validate_iff {x : Anonymous} : x.validate = .ok () ↔
    x.type.validate = .ok () ∧ (∀ v ∈ x.arguments, v.validate = .ok ())
      ∧ (∀ f ∈ x.fields, f.validate = .ok ()) ∧ ∀ m ∈ x.methods, m.validate = .ok () := by
  cases x
  rw [Anonymous.validate]
  simp

theorem Field.validate_iff {x : Field} : x.validate = .ok () ↔
    Name.isIdentifier x.name ∧ x.type.validate = .ok ()
      ∧ (∀ u ∈ x.annotations, u.type.validate = .ok ()) ∧ ∀ v ∈ x.value, v.validate = .ok () := by
  obtain ⟨name, type, javadoc, annotations, modifiers, value⟩ := x
  cases value <;> rw [Field.validate] <;> simp

theorem Method.validate_iff {x : Method} : x.validate = .ok () ↔
    Name.isIdentifier x.name ∧ x.type.validate = .ok ()
      ∧ (∀ t ∈ x.exceptions, t.validate = .ok ())
      ∧ (∀ u ∈ x.annotations, u.type.validate = .ok ()) ∧ ∀ f ∈ x.fields, f.validate = .ok () := by
  cases x
  rw [Method.validate]
  simp

theorem Constructor.validate_iff {x : Constructor} : x.validate = .ok () ↔
    (∀ t ∈ x.exceptions, t.validate = .ok ())
      ∧ (∀ u ∈ x.annotations, u.type.validate = .ok ()) ∧ ∀ f ∈ x.fields, f.validate = .ok () := by
  simp [Constructor.validate]

theorem EnumConstant.validate_iff {x : EnumConstant} : x.validate = .ok () ↔
    Name.isIdentifier x.name ∧ (∀ v ∈ x.values, v.validate = .ok ())
      ∧ (∀ f ∈ x.fields, f.validate = .ok ()) ∧ ∀ m ∈ x.methods, m.validate = .ok () := by
  simp [EnumConstant.validate]

theorem AnnotationDecl.validate_iff {x : AnnotationDecl} : x.validate = .ok () ↔
    Name.isIdentifier x.name ∧ (∀ u ∈ x.annotations, u.type.validate = .ok ())
      ∧ ∀ f ∈ x.fields, f.validate = .ok () := by
  simp [AnnotationDecl.validate]

theorem ClassDecl.validate_iff {x : ClassDecl} : x.validate = .ok () ↔
    Name.isIdentifier x.name ∧ (∀ t ∈ x.supertype, t.validate = .ok ())
      ∧ (∀ t ∈ x.interfaces, t.validate = .ok ()) ∧ (∀ c ∈ x.constructors, c.validate = .ok ())
      ∧ (∀ u ∈ x.annotations, u.type.validate = .ok ()) ∧ (∀ f ∈ x.fields, f.validate = .ok ())
      ∧ (∀ m ∈ x.methods, m.validate = .ok ()) ∧ ∀ d ∈ x.classes, d.validate = .ok () := by
  cases x
  rw [ClassDecl.validate]
  simp

theorem InterfaceDecl.validate_iff {x : InterfaceDecl} : x.validate = .ok () ↔
    Name.isIdentifier x.name ∧ (∀ t ∈ x.interfaces, t.validate = .ok ())
      ∧ (∀ u ∈ x.annotations, u.type.validate = .ok ()) ∧ (∀ f ∈ x.fields, f.validate = .ok ())
      ∧ (∀ m ∈ x.methods, m.validate = .ok ()) ∧ ∀ d ∈ x.classes, d.validate = .ok () := by
  cases x
  rw [InterfaceDecl.validate]
  simp

theorem EnumDecl.validate_iff {x : EnumDecl} : x.validate = .ok () ↔
    Name.isIdentifier x.name ∧ (∀ t ∈ x.interfaces, t.validate = .ok ())
      ∧ (∀ c ∈ x.constants, c.validate = .ok ()) ∧ (∀ c ∈ x.constructors, c.validate = .ok ())
      ∧ (∀ u ∈ x.annotations, u.type.validate = .ok ()) ∧ (∀ f ∈ x.fields, f.validate = .ok ())
      ∧ (∀ m ∈ x.methods, m.validate = .ok ()) ∧ ∀ d ∈ x.classes, d.validate = .ok () := by
  cases x
  rw [EnumDecl.validate]
  simp

theorem Import.validate_iff {x : Import} : x.validate = .ok () ↔
    x.type.validate = .ok () ∧ ∀ member ∈ x.member, Name.isIdentifier member := by
  simp [Import.validate]

theorem File.validate_iff {x : File} : x.validate = .ok () ↔
    ¬ Text.allBlank x.name ∧ (∀ i ∈ x.imports, i.validate = .ok ())
      ∧ ∀ d ∈ x.classes, d.validate = .ok () := by
  have hname : x.checkName = .ok () ↔ ¬ Text.allBlank x.name := by
    unfold File.checkName
    split
    · next h => exact iff_of_false nofun (not_not_intro h)
    · next h => exact iff_of_true rfl h
  simp [File.validate, hname]

theorem Tag.validate_iff {x : Tag} : x.validate = .ok () ↔
    Name.isMarkup x.name ∧ (∀ a ∈ x.attributes, Name.isMarkup a.name)
      ∧ ∀ e ∈ x.children, e.validate = .ok () := by
  cases x
  rw [Tag.validate]
  simp

theorem Document.validate_iff {x : Document} : x.validate = .ok () ↔
    ∀ e ∈ x.elements, e.validate = .ok () := by
  simp [Document.validate]

/-! Items. -/

namespace Item

/-- Type parameters and the values that an annotation is given are passed over. -/
def passesOver : Item → Item → Bool
  | classDecl _, generic _ | interfaceDecl _, generic _ | method _, generic _
  | annotationUse _, value _ => true
  | _, _ => false

/-- The items that validation goes on to: what an item holds, unless it is passed over, and the type
of an import. -/
inductive GoesTo : Item → Item → Prop
  | held {i m : Item} (holds : i.Holds m) (hpasses : passesOver i m = false) : GoesTo i m
  | imported (x : Import) : GoesTo (importDecl x) (type x.type)

/-- What is checked of an item itself. The generics that validation comes to are wildcards. -/
def Passes : Item → Prop
  | file x => ¬ Text.allBlank x.name
  | classDecl x => Name.isIdentifier x.name
  | interfaceDecl x => Name.isIdentifier x.name
  | enumDecl x => Name.isIdentifier x.name
  | annotationDecl x => Name.isIdentifier x.name
  | enumConstant x => Name.isIdentifier x.name
  | method x => Name.isIdentifier x.name
  | field x => Name.isIdentifier x.name
  | generic x => x.name = none
  | importDecl x => ∀ member ∈ x.member, Name.isIdentifier member
  | type x => Name.isQualified x.name
  | value (.enumConstant _ constant) => Name.isIdentifier constant
  | value (.invocation _ name _) => Name.isIdentifier name
  | tag x => Name.isMarkup x.name
  | tagAttribute x => Name.isMarkup x.name
  | _ => True

def validate : Item → Validity
  | file x => x.validate
  | classDecl x => x.validate
  | interfaceDecl x => x.validate
  | enumDecl x => x.validate
  | annotationDecl x => x.validate
  | enumConstant x => x.validate
  | method x => x.validate
  | constructor x => x.validate
  | field x => x.validate
  | generic x => x.validateWildcard
  | importDecl x => x.validate
  | annotationUse x => x.type.validate
  | type x => x.validate
  | value x => x.validate
  | document x => x.validate
  | tag x => x.validate
  | tagAttribute x => checkMarkupName .tagAttribute x.name
  | javadoc _ | javadocTag _ | initializer _ | declaration _ | text _ => .ok ()

theorem validate_ofTypeDecl (d : TypeDecl) : (ofTypeDecl d).validate = d.validate := by
  cases d <;> simp [ofTypeDecl, validate, TypeDecl.validate]

theorem validate_ofArgument (a : TypeArgument) : (ofArgument a).validate = a.validate := by
  cases a <;> simp [ofArgument, validate, TypeArgument.validate]

theorem validate_ofElement (e : Element) : (ofElement e).validate = e.validate := by
  cases e <;> simp [ofElement, validate, Element.validate]

theorem passesOver_ofTypeDecl (i : Item) (d : TypeDecl) : passesOver i (ofTypeDecl d) = false := by
  cases i <;> cases d <;> rfl

theorem passesOver_of_heading (i : Item) {m : Item} (h : m ∈ i.heading) :
    passesOver i m = false := by
  simp only [heading, List.mem_append, List.mem_map] at h
  rcases h with ⟨j, -, rfl⟩ | ⟨u, -, rfl⟩ <;> cases i <;> rfl

theorem forall_heading {i : Item} : (∀ m ∈ i.heading, m.validate = .ok ()) ↔
    ∀ u ∈ i.annotations?.getD [], u.type.validate = .ok () := by
  simp [heading, or_imp, forall_and, validate]

theorem forall_goesTo {i : Item} (h : ∀ x, i ≠ importDecl x) :
    (∀ m, GoesTo i m → m.validate = .ok ()) ↔
      (∀ u ∈ i.annotations?.getD [], u.type.validate = .ok ())
        ∧ ∀ m ∈ i.contents, passesOver i m = false → m.validate = .ok () := by
  rw [← forall_heading]
  constructor
  · intro hall
    refine ⟨fun m hm => ?_, fun m hm hpasses => ?_⟩
    · exact hall m (.held (holds_iff.2 (.inl hm)) (passesOver_of_heading i hm))
    · exact hall m (.held (holds_iff.2 (.inr hm)) hpasses)
  · rintro ⟨hheading, hcontents⟩ m hm
    cases hm with
    | held holds hpasses =>
      rcases holds_iff.1 holds with hm | hm
      · exact hheading m hm
      · exact hcontents m hm hpasses
    | imported x => exact absurd rfl (h x)

theorem validate_importDecl_iff (x : Import) : (importDecl x).validate = .ok () ↔
    (importDecl x).Passes ∧ ∀ m, GoesTo (importDecl x) m → m.validate = .ok () := by
  have hgoes : (∀ m, GoesTo (importDecl x) m → m.validate = .ok ()) ↔ x.type.validate = .ok () := by
    constructor
    · exact fun h => h _ (.imported x)
    · intro h m hm
      cases hm with
      | held holds hpasses => simp [heading, javadoc?, annotations?] at holds
      | imported => exact h
  rw [hgoes]
  rw [validate, Import.validate_iff, Passes, and_comm]

/-- An item passes if it does so itself and all that validation goes on to passes. -/
theorem validate_iff (i : Item) :
    i.validate = .ok () ↔ i.Passes ∧ ∀ m, GoesTo i m → m.validate = .ok () := by
  -- Only an import goes on to a type that is not among its contents.
  by_cases himport : ∃ x, i = importDecl x
  · obtain ⟨x, rfl⟩ := himport
    exact validate_importDecl_iff x
  rw [forall_goesTo fun x heq => himport ⟨x, heq⟩]
  cases i with
  | importDecl x => exact absurd ⟨x, rfl⟩ himport
  | file x =>
    simp only [contents, List.forall_mem_append, List.forall_mem_map, validate_ofTypeDecl,
      passesOver_ofTypeDecl, forall_const]
    simp [validate, Passes, annotations?, passesOver, File.validate_iff]
  | classDecl x | interfaceDecl x | enumDecl x =>
    simp only [contents, List.forall_mem_append, List.forall_mem_map, validate_ofTypeDecl,
      passesOver_ofTypeDecl, forall_const]
    simp [validate, Passes, annotations?, passesOver, ClassDecl.validate_iff,
      InterfaceDecl.validate_iff, EnumDecl.validate_iff]
    grind
  | annotationDecl x | enumConstant x | annotationUse x =>
    simp only [contents, List.forall_mem_append, List.forall_mem_map]
    simp [validate, Passes, annotations?, passesOver, AnnotationDecl.validate_iff,
      EnumConstant.validate_iff, and_assoc]
  | method x | constructor x | field x =>
    simp only [contents, List.forall_mem_append, List.forall_mem_map]
    simp [validate, Passes, annotations?, passesOver, Method.validate_iff,
      Constructor.validate_iff, Field.validate_iff]
    grind
  | type x | generic x =>
    simp only [contents, List.forall_mem_map, validate_ofArgument]
    simp [validate, Passes, annotations?, passesOver, TypeRef.validate_iff,
      Generic.validateWildcard_iff]
  | value v =>
    cases v
    all_goals
      simp only [contents, valueContents, List.forall_mem_append, List.forall_mem_map]
      simp [validate, Passes, annotations?, passesOver, Value.validate, Anonymous.validate_iff,
        and_assoc, and_comm, and_left_comm]
  | document x | tag x =>
    simp only [contents, List.forall_mem_append, List.forall_mem_map, validate_ofElement]
    simp [validate, Passes, annotations?, passesOver, Document.validate_iff, Tag.validate_iff]
  | javadoc x | javadocTag x | initializer x | declaration x | tagAttribute x | text x =>
    simp [validate, Passes, annotations?]

theorem sizeOf_lt_of_goesTo {i m : Item} (h : GoesTo i m) : sizeOf m < sizeOf i := by
  cases h with
  | held holds _ => exact sizeOf_lt_of_holds holds
  | imported x =>
    cases x
    simp only [type.sizeOf_spec, importDecl.sizeOf_spec, Import.mk.sizeOf_spec]
    omega

def Comes (i m : Item) : Prop := Relation.ReflTransGen GoesTo i m

/-- Validation accepts just those models in which all that it comes to passes on its own. -/
theorem validate_eq_ok_iff (i : Item) : i.validate = .ok () ↔ ∀ m, i.Comes m → m.Passes := by
  constructor
  · intro h m hm
    have hvalid : m.validate = .ok () := by
      induction hm with
      | refl => exact h
      | tail _ hstep ih => exact ((validate_iff _).1 ih).2 _ hstep
    exact ((validate_iff m).1 hvalid).1
  · induction hsize : sizeOf i using Nat.strongRecOn generalizing i with
    | ind size ih =>
      intro h
      refine (validate_iff i).2 ⟨h i .refl, fun m hm => ?_⟩
      refine ih (sizeOf m) (hsize ▸ sizeOf_lt_of_goesTo hm) m rfl fun m' hm' => ?_
      exact h m' (.head hm hm')

/-! Names. -/

/-- Whether the names that are written for an item itself are what they must be: identifiers, or
dotted names for packages and types. -/
def NamesLegal : Item → Prop
  | file x => ∀ package ∈ x.package?, Name.isQualified package
  | classDecl x => Name.isIdentifier x.name
  | interfaceDecl x => Name.isIdentifier x.name
  | enumDecl x => Name.isIdentifier x.name
  | annotationDecl x => Name.isIdentifier x.name
  | enumConstant x => Name.isIdentifier x.name
  | method x => Name.isIdentifier x.name
  | field x => Name.isIdentifier x.name
  | generic x => ∀ name ∈ x.name, Name.isIdentifier name
  | importDecl x =>
    Name.isQualified x.type.name ∧ ∀ member ∈ x.member, Name.isIdentifier member
  | type x => Name.isQualified x.name
  | annotationUse x => ∀ v ∈ x.values, Name.isIdentifier v.name
  | value (.enumConstant _ constant) => Name.isIdentifier constant
  | value (.invocation _ name _) => Name.isIdentifier name
  | _ => True

def PassedOver (i m : Item) : Prop :=
  ∃ outer inner, i.Within outer ∧ outer.Holds inner ∧ passesOver outer inner ∧ inner.Within m

/-- What stands inside an item without a check of its names: all there is in the parts passed over,
files, for their packages, and annotations, for the names of the values they are given. -/
def Unchecked (i m : Item) : Prop :=
  i.PassedOver m ∨ i.Within m ∧ (m.kind = .file ∨ m.kind = .annotationUse)

/-- On the way inwards validation comes along until it passes over something. -/
theorem comes_or_passedOver {i m : Item} (h : i.Within m) : i.Comes m ∨ i.PassedOver m := by
  induction h with
  | refl => exact .inl .refl
  | @tail outer inner hwithin hholds ih =>
    rcases ih with hcomes | ⟨outer', inner', houter, hholds', hpasses, hinner⟩
    · cases hpasses : passesOver outer inner with
      | true => exact .inr ⟨outer, inner, hwithin, hholds, hpasses, .refl⟩
      | false => exact .inl (hcomes.tail (.held hholds hpasses))
    · exact .inr ⟨outer', inner', houter, hholds', hpasses, hinner.tail hholds⟩

theorem namesLegal_of_comes {i m : Item} (hpasses : ∀ m, i.Comes m → m.Passes) (hm : i.Comes m)
    (hfile : m.kind ≠ .file) (huse : m.kind ≠ .annotationUse) : m.NamesLegal := by
  cases m with
  | file => exact absurd rfl hfile
  | annotationUse => exact absurd rfl huse
  | importDecl x => exact ⟨hpasses _ (hm.tail (.imported x)), hpasses _ hm⟩
  | generic x =>
    have hnone : x.name = none := hpasses _ hm
    intro name hname
    rw [hnone] at hname
    exact nomatch hname
  | value v => cases v <;> exact hpasses _ hm
  | classDecl | interfaceDecl | enumDecl | annotationDecl | enumConstant | method | field | type =>
    exact hpasses _ hm
  | _ => trivial

end Item

/-- In a file that validation accepts, a name is legal unless it stands where names are not
checked. -/
theorem File.namesLegal_or_unchecked {x : File} (h : x.validate = .ok ()) {m : Item}
    (hm : (Item.file x).Within m) : m.NamesLegal ∨ (Item.file x).Unchecked m := by
  by_cases hfile : m.kind = .file
  · exact .inr (.inr ⟨hm, .inl hfile⟩)
  by_cases huse : m.kind = .annotationUse
  · exact .inr (.inr ⟨hm, .inr huse⟩)
  rcases Item.comes_or_passedOver hm with hcomes | hpassed
  · have hpasses := (Item.validate_eq_ok_iff (.file x)).1 h
    exact .inl (Item.namesLegal_of_comes hpasses hcomes hfile huse)
  · exact .inr (.inl hpassed)

def crate : ClassDecl := { name := "Crate", generics := [.ofName "2T"] }

def crateFile : File := { name := "Crate.java", classes := [.classDecl crate] }

/-- Validation accepts the class, bad name and all: the name stands where names are not checked. -/
theorem File.unchecked_crate :
    let parameter : Item := .generic (.ofName "2T")
    crateFile.validate = .ok () ∧ (Item.file crateFile).Within parameter
      ∧ ¬ parameter.NamesLegal ∧ (Item.file crateFile).Unchecked parameter := by
  intro parameter
  have hvalid : crateFile.validate = .ok () := rfl
  have hclass : (Item.file crateFile).Holds (.classDecl crate) := by
    simp [crateFile, Item.ofTypeDecl]
  have hparameter : (Item.classDecl crate).Holds parameter := by
    simp [crate, parameter]
  have hwithin : (Item.file crateFile).Within parameter := .tail (.single hclass) hparameter
  have hbad : ¬ parameter.NamesLegal := fun hlegal => absurd (hlegal "2T" rfl) (by decide +kernel)
  exact ⟨hvalid, hwithin, hbad, (File.namesLegal_or_unchecked hvalid hwithin).resolve_left hbad⟩

end Scribe
