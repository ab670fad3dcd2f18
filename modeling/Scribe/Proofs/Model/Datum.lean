import Scribe.Model.Datum.Markup
import Scribe.Model.Datum.TypeDecl

/-!
Every part of a model is got back from its data.
-/
namespace Scribe

open Json (Datum)
open Json.Datum (ofOption ofStrings toOption? toString? toBool? toList?)

namespace Json.Datum

variable {f : α → Datum} {g : Datum → Option α}

theorem toOption?_ofOption {o : Option α} (habsent : g .absent = none)
    (h : ∀ a ∈ o, g (f a) = some a) : toOption? g (ofOption f o) = some o := by
  cases o with
  | none => rfl
  | some a =>
    have ha := h a rfl
    change toOption? g (f a) = some (some a)
    unfold toOption?
    split
    · next heq =>
      rw [heq, habsent] at ha
      exact nomatch ha
    · rw [ha, Option.map_some]

theorem toList?_map {as : List α} (h : ∀ a ∈ as, g (f a) = some a) :
    toList? g (.list (as.map f)) = some as := by
  unfold toList?
  dsimp only
  induction as with
  | nil => rfl
  | cons a as ih =>
    rw [List.forall_mem_cons] at h
    rw [List.map_cons, List.mapM_cons, h.1, ih h.2]
    rfl

theorem toList?_data {data : List α → List Datum} (hnil : data [] = [])
    (hcons : ∀ a as, data (a :: as) = f a :: data as) (h : ∀ a, g (f a) = some a) (as : List α) :
    toList? g (.list (data as)) = some as := by
  have hmap : data as = as.map f := by
    induction as with
    | nil => exact hnil
    | cons a as ih => rw [hcons, ih, List.map_cons]
  rw [hmap]
  exact toList?_map fun a _ => h a

theorem toOption?_string (o : Option String) : toOption? toString? (ofOption .string o) = some o :=
  toOption?_ofOption rfl fun _ _ => rfl

theorem toList?_ofStrings (ss : List String) : toList? toString? (ofStrings ss) = some ss :=
  toList?_map fun _ _ => rfl

end Json.Datum

open Json.Datum (toOption?_ofOption toList?_map toList?_data toOption?_string toList?_ofStrings)

/-! References to types. -/

theorem BoundKind.ofDatum?_toDatum (k : BoundKind) : BoundKind.ofDatum? k.toDatum = some k := by
  cases k <;> rfl

mutual

theorem TypeRef.ofDatum?_toDatum : (t : TypeRef) → TypeRef.ofDatum? t.toDatum = some t
  | ⟨name, arguments, dimensions⟩ => by
    rw [TypeRef.toDatum, TypeRef.ofDatum?, ofArgumentData?_argumentData arguments]
    rfl

theorem TypeArgument.ofDatum?_toDatum : (a : TypeArgument) →
    TypeArgument.ofDatum? a.toDatum = some a
  | .type t => by
    rw [TypeArgument.toDatum, TypeArgument.ofDatum?, if_pos rfl, TypeRef.ofDatum?_toDatum t]
    rfl
  | .wildcard g => by
    rw [TypeArgument.toDatum, TypeArgument.ofDatum?, if_neg (by decide),
      Generic.ofDatum?_toDatum g]
    rfl

theorem Generic.ofDatum?_toDatum : (g : Generic) → Generic.ofDatum? g.toDatum = some g
  | ⟨name, bounds, kind⟩ => by
    rw [Generic.toDatum, Generic.ofDatum?, toOption?_string, ofTypeData?_typeData bounds,
      BoundKind.ofDatum?_toDatum]
    rfl

theorem ofArgumentData?_argumentData : (as : List TypeArgument) →
    ofArgumentData? (argumentData as) = some as
  | [] => rfl
  | a :: as => by
    rw [argumentData, ofArgumentData?, TypeArgument.ofDatum?_toDatum a,
      ofArgumentData?_argumentData as]
    rfl

theorem ofTypeData?_typeData : (ts : List TypeRef) → ofTypeData? (typeData ts) = some ts
  | [] => rfl
  | t :: ts => by
    rw [typeData, ofTypeData?, TypeRef.ofDatum?_toDatum t, ofTypeData?_typeData ts]
    rfl

end

theorem toList?_typeData (ts : List TypeRef) :
    toList? TypeRef.ofDatum? (.list (typeData ts)) = some ts :=
  toList?_data rfl (fun _ _ => rfl) TypeRef.ofDatum?_toDatum ts

/-! Modifiers, comments and numbers. -/

theorem Modifier.ofKeyword?_keyword (m : Modifier) : Modifier.ofKeyword? m.keyword = some m := by
  cases m <;> decide

namespace Modifiers

theorem contains_insertAll (s : Modifiers) (ms : List Modifier) (m : Modifier) :
    (s.insertAll ms).contains m = (s.contains m || decide (m ∈ ms)) := by
  induction ms generalizing s with
  | nil => simp [insertAll]
  | cons n ns ih =>
    calc (s.insertAll (n :: ns)).contains m = ((s.insert n).insertAll ns).contains m := rfl
      _ = (s.contains m || decide (m = n) || decide (m ∈ ns)) := by rw [ih, contains_insert]
      _ = (s.contains m || decide (m ∈ n :: ns)) := by simp [Bool.or_assoc]

theorem ext_contains {s t : Modifiers} (h : ∀ m, s.contains m = t.contains m) : s = t := by
  obtain ⟨a⟩ := s
  obtain ⟨b⟩ := t
  refine congrArg Modifiers.mk (BitVec.eq_of_getLsbD_eq fun i hi => ?_)
  obtain ⟨m, rfl⟩ : ∃ m : Modifier, m.rank = i := by
    have hall : ∀ i < 12, ∃ m ∈ Modifier.all, m.rank = i := by decide
    obtain ⟨m, -, hm⟩ := hall i hi
    exact ⟨m, hm⟩
  exact h m

theorem ofList_toList (s : Modifiers) : ofList s.toList = s := by
  apply ext_contains
  intro m
  have hempty : empty.contains m = false := by simp [empty, contains]
  rw [ofList, contains_insertAll, hempty, Bool.false_or]
  simp only [mem_toList, Bool.decide_eq_true]

theorem ofDatum?_toDatum (s : Modifiers) : ofDatum? s.toDatum = some s := by
  unfold ofDatum? toDatum
  rw [toList?_map fun m _ => Modifier.ofKeyword?_keyword m, Option.map_some, ofList_toList]

end Modifiers

theorem JavadocTag.ofDatum?_toDatum (t : JavadocTag) : JavadocTag.ofDatum? t.toDatum = some t := by
  rw [JavadocTag.toDatum, JavadocTag.ofDatum?, toOption?_string, toOption?_string]
  rfl

theorem Javadoc.ofDatum?_toDatum (j : Javadoc) : Javadoc.ofDatum? j.toDatum = some j := by
  rw [Javadoc.toDatum, Javadoc.ofDatum?, toList?_map fun t _ => JavadocTag.ofDatum?_toDatum t]
  rfl

theorem toOption?_javadoc (j : Option Javadoc) :
    toOption? Javadoc.ofDatum? (ofOption Javadoc.toDatum j) = some j :=
  toOption?_ofOption rfl fun j _ => Javadoc.ofDatum?_toDatum j

theorem toOption?_type (t : Option TypeRef) :
    toOption? TypeRef.ofDatum? (ofOption TypeRef.toDatum t) = some t :=
  toOption?_ofOption rfl fun t _ => TypeRef.ofDatum?_toDatum t

theorem toList?_generics (gs : List Generic) :
    toList? Generic.ofDatum? (.list (gs.map Generic.toDatum)) = some gs :=
  toList?_map fun g _ => Generic.ofDatum?_toDatum g

theorem Number.ofDatum?_toDatum (n : Number) : Number.ofDatum? n.toDatum = some n := by
  cases n <;> rfl

/-! Values and members. -/

theorem Value.toDatum_ne_absent (v : Value) : v.toDatum = .absent → False := by
  cases v <;> simp [Value.toDatum]

mutual

theorem Value.ofDatum?_toDatum : (v : Value) → Value.ofDatum? v.toDatum = some v
  | .array items => by
    rw [Value.toDatum, Value.ofDatum?, ofValueData?_valueData items]
    rfl
  | .boolean _ | .reference _ | .text _ | .null => rfl
  | .enumConstant type constant => by
    rw [Value.toDatum, Value.ofDatum?, TypeRef.ofDatum?_toDatum]
    rfl
  | .number n => by
    rw [Value.toDatum, Value.ofDatum?, Number.ofDatum?_toDatum]
    rfl
  | .invocation target name arguments => by
    rw [Value.toDatum, Value.ofDatum?, toOption?_type, ofValueData?_valueData arguments]
    rfl
  | .anonymous body => by
    rw [Value.toDatum, Value.ofDatum?, Anonymous.ofDatum?_toDatum body]
    rfl

theorem Anonymous.ofDatum?_toDatum : (a : Anonymous) → Anonymous.ofDatum? a.toDatum = some a
  | ⟨type, arguments, fields, methods⟩ => by
    rw [Anonymous.toDatum, Anonymous.ofDatum?, TypeRef.ofDatum?_toDatum,
      ofValueData?_valueData arguments, ofFieldData?_fieldData fields,
      ofMethodData?_methodData methods]
    rfl

theorem NamedValue.ofDatum?_toDatum : (v : NamedValue) → NamedValue.ofDatum? v.toDatum = some v
  | ⟨name, value⟩ => by
    rw [NamedValue.toDatum, NamedValue.ofDatum?, Value.ofDatum?_toDatum value]
    rfl

theorem AnnotationUse.ofDatum?_toDatum : (u : AnnotationUse) →
    AnnotationUse.ofDatum? u.toDatum = some u
  | ⟨type, none, values⟩ => by
    rw [AnnotationUse.toDatum, optionalValueDatum, AnnotationUse.ofDatum?,
      TypeRef.ofDatum?_toDatum, ofNamedValueData?_namedValueData values]
    rfl
  | ⟨type, some value, values⟩ => by
    rw [AnnotationUse.toDatum, optionalValueDatum, AnnotationUse.ofDatum?,
      Value.ofDatum?_toDatum value, TypeRef.ofDatum?_toDatum,
      ofNamedValueData?_namedValueData values]
    · rfl
    · exact value.toDatum_ne_absent

theorem Field.ofDatum?_toDatum : (f : Field) → Field.ofDatum? f.toDatum = some f
  | ⟨name, type, javadoc, annotations, modifiers, none⟩ => by
    rw [Field.toDatum, optionalValueDatum, Field.ofDatum?, TypeRef.ofDatum?_toDatum,
      toOption?_javadoc, ofAnnotationUseData?_annotationUseData annotations,
      Modifiers.ofDatum?_toDatum]
    rfl
  | ⟨name, type, javadoc, annotations, modifiers, some value⟩ => by
    rw [Field.toDatum, optionalValueDatum, Field.ofDatum?, Value.ofDatum?_toDatum value,
      TypeRef.ofDatum?_toDatum, toOption?_javadoc,
      ofAnnotationUseData?_annotationUseData annotations, Modifiers.ofDatum?_toDatum]
    · rfl
    · exact value.toDatum_ne_absent

theorem Method.ofDatum?_toDatum : (m : Method) → Method.ofDatum? m.toDatum = some m
  | ⟨name, javadoc, annotations, modifiers, generics, type, fields, exceptions, code, tripleDot⟩ => by
    rw [Method.toDatum, Method.ofDatum?, toOption?_javadoc,
      ofAnnotationUseData?_annotationUseData annotations, Modifiers.ofDatum?_toDatum,
      toList?_generics, TypeRef.ofDatum?_toDatum, ofFieldData?_fieldData fields, toList?_typeData,
      toList?_ofStrings]
    rfl

theorem ofValueData?_valueData : (vs : List Value) → ofValueData? (valueData vs) = some vs
  | [] => rfl
  | v :: vs => by
    rw [valueData, ofValueData?, Value.ofDatum?_toDatum v, ofValueData?_valueData vs]
    rfl

theorem ofNamedValueData?_namedValueData : (vs : List NamedValue) →
    ofNamedValueData? (namedValueData vs) = some vs
  | [] => rfl
  | v :: vs => by
    rw [namedValueData, ofNamedValueData?, NamedValue.ofDatum?_toDatum v,
      ofNamedValueData?_namedValueData vs]
    rfl

theorem ofAnnotationUseData?_annotationUseData : (us : List AnnotationUse) →
    ofAnnotationUseData? (annotationUseData us) = some us
  | [] => rfl
  | u :: us => by
    rw [annotationUseData, ofAnnotationUseData?, AnnotationUse.ofDatum?_toDatum u,
      ofAnnotationUseData?_annotationUseData us]
    rfl

theorem ofFieldData?_fieldData : (fs : List Field) → ofFieldData? (fieldData fs) = some fs
  | [] => rfl
  | f :: fs => by
    rw [fieldData, ofFieldData?, Field.ofDatum?_toDatum f, ofFieldData?_fieldData fs]
    rfl

theorem ofMethodData?_methodData : (ms : List Method) → ofMethodData? (methodData ms) = some ms
  | [] => rfl
  | m :: ms => by
    rw [methodData, ofMethodData?, Method.ofDatum?_toDatum m, ofMethodData?_methodData ms]
    rfl

end

theorem toList?_valueData (vs : List Value) :
    toList? Value.ofDatum? (.list (valueData vs)) = some vs :=
  toList?_data rfl (fun _ _ => rfl) Value.ofDatum?_toDatum vs

theorem toList?_annotationUseData (us : List AnnotationUse) :
    toList? AnnotationUse.ofDatum? (.list (annotationUseData us)) = some us :=
  toList?_data rfl (fun _ _ => rfl) AnnotationUse.ofDatum?_toDatum us

theorem toList?_fieldData (fs : List Field) :
    toList? Field.ofDatum? (.list (fieldData fs)) = some fs :=
  toList?_data rfl (fun _ _ => rfl) Field.ofDatum?_toDatum fs

theorem toList?_methodData (ms : List Method) :
    toList? Method.ofDatum? (.list (methodData ms)) = some ms :=
  toList?_data rfl (fun _ _ => rfl) Method.ofDatum?_toDatum ms

/-! Declarations and files. -/

theorem Import.ofDatum?_toDatum (i : Import) : Import.ofDatum? i.toDatum = some i := by
  rw [Import.toDatum, Import.ofDatum?, TypeRef.ofDatum?_toDatum, toOption?_string]
  rfl

theorem Initializer.ofDatum?_toDatum (i : Initializer) :
    Initializer.ofDatum? i.toDatum = some i := by
  rw [Initializer.toDatum, Initializer.ofDatum?, toList?_ofStrings]
  rfl

theorem Constructor.ofDatum?_toDatum (c : Constructor) :
    Constructor.ofDatum? c.toDatum = some c := by
  rw [Constructor.toDatum, Constructor.ofDatum?, toOption?_javadoc, toList?_annotationUseData,
    Modifiers.ofDatum?_toDatum, toList?_fieldData, toList?_typeData, toList?_ofStrings]
  rfl

theorem EnumConstant.ofDatum?_toDatum (c : EnumConstant) :
    EnumConstant.ofDatum? c.toDatum = some c := by
  rw [EnumConstant.toDatum, EnumConstant.ofDatum?, toOption?_javadoc, toList?_valueData,
    toList?_fieldData, toList?_methodData]
  rfl

theorem AnnotationDecl.ofDatum?_toDatum (d : AnnotationDecl) :
    AnnotationDecl.ofDatum? d.toDatum = some d := by
  rw [AnnotationDecl.toDatum, AnnotationDecl.ofDatum?, toOption?_javadoc,
    toList?_annotationUseData, Modifiers.ofDatum?_toDatum, toList?_fieldData]
  rfl

mutual

theorem ClassDecl.ofDatum?_toDatum : (d : ClassDecl) → ClassDecl.ofDatum? d.toDatum = some d
  | ⟨name, javadoc, annotations, modifiers, generics, supertype, interfaces, fields, initializers,
      constructors, methods, classes⟩ => by
    rw [ClassDecl.toDatum, ClassDecl.ofDatum?, toOption?_javadoc, toList?_annotationUseData,
      Modifiers.ofDatum?_toDatum, toList?_generics, toOption?_type, toList?_typeData,
      toList?_fieldData, toList?_map fun i _ => Initializer.ofDatum?_toDatum i,
      toList?_map fun c _ => Constructor.ofDatum?_toDatum c, toList?_methodData,
      ofTypeDeclData?_typeDeclData classes]
    rfl

theorem InterfaceDecl.ofDatum?_toDatum : (d : InterfaceDecl) →
    InterfaceDecl.ofDatum? d.toDatum = some d
  | ⟨name, javadoc, annotations, modifiers, generics, interfaces, fields, methods, classes⟩ => by
    rw [InterfaceDecl.toDatum, InterfaceDecl.ofDatum?, toOption?_javadoc,
      toList?_annotationUseData, Modifiers.ofDatum?_toDatum, toList?_generics, toList?_typeData,
      toList?_fieldData, toList?_methodData, ofTypeDeclData?_typeDeclData classes]
    rfl

theorem EnumDecl.ofDatum?_toDatum : (d : EnumDecl) → EnumDecl.ofDatum? d.toDatum = some d
  | ⟨name, javadoc, annotations, modifiers, interfaces, constants, fields, initializers,
      constructors, methods, classes⟩ => by
    rw [EnumDecl.toDatum, EnumDecl.ofDatum?, toOption?_javadoc, toList?_annotationUseData,
      Modifiers.ofDatum?_toDatum, toList?_typeData,
      toList?_map fun c _ => EnumConstant.ofDatum?_toDatum c, toList?_fieldData,
      toList?_map fun i _ => Initializer.ofDatum?_toDatum i,
      toList?_map fun c _ => Constructor.ofDatum?_toDatum c, toList?_methodData,
      ofTypeDeclData?_typeDeclData classes]
    rfl

theorem TypeDecl.ofDatum?_toDatum : (d : TypeDecl) → TypeDecl.ofDatum? d.toDatum = some d
  | .classDecl d => by
    rw [TypeDecl.toDatum, TypeDecl.ofDatum?, ClassDecl.ofDatum?_toDatum d]
    rfl
  | .interfaceDecl d => by
    rw [TypeDecl.toDatum, TypeDecl.ofDatum?, InterfaceDecl.ofDatum?_toDatum d]
    rfl
  | .enumDecl d => by
    rw [TypeDecl.toDatum, TypeDecl.ofDatum?, EnumDecl.ofDatum?_toDatum d]
    rfl
  | .annotationDecl d => by
    rw [TypeDecl.toDatum, TypeDecl.ofDatum?, AnnotationDecl.ofDatum?_toDatum d]
    rfl

theorem ofTypeDeclData?_typeDeclData : (ds : List TypeDecl) →
    ofTypeDeclData? (typeDeclData ds) = some ds
  | [] => rfl
  | d :: ds => by
    rw [typeDeclData, ofTypeDeclData?, TypeDecl.ofDatum?_toDatum d,
      ofTypeDeclData?_typeDeclData ds]
    rfl

end

theorem toList?_typeDeclData (ds : List TypeDecl) :
    toList? TypeDecl.ofDatum? (.list (typeDeclData ds)) = some ds :=
  toList?_data rfl (fun _ _ => rfl) TypeDecl.ofDatum?_toDatum ds

theorem File.ofDatum?_toDatum (f : File) : File.ofDatum? f.toDatum = some f := by
  rw [File.toDatum, File.ofDatum?, toOption?_javadoc,
    toList?_map fun i _ => Import.ofDatum?_toDatum i, toList?_typeDeclData]
  rfl

/-! Markup. -/

theorem MarkupDeclaration.ofDatum?_toDatum (d : MarkupDeclaration) :
    MarkupDeclaration.ofDatum? d.toDatum = some d := by
  have hstandalone : toOption? toBool? (ofOption .bool d.standalone) = some d.standalone :=
    toOption?_ofOption rfl fun _ _ => rfl
  rw [MarkupDeclaration.toDatum, MarkupDeclaration.ofDatum?, toOption?_string, hstandalone]
  rfl

theorem Attribute.ofDatum?_toDatum (a : Attribute) : Attribute.ofDatum? a.toDatum = some a := by
  rw [Attribute.toDatum, Attribute.ofDatum?, toOption?_string]
  rfl

mutual

theorem Tag.ofDatum?_toDatum : (t : Tag) → Tag.ofDatum? t.toDatum = some t
  | ⟨name, attributes, children⟩ => by
    rw [Tag.toDatum, Tag.ofDatum?, toList?_map fun a _ => Attribute.ofDatum?_toDatum a,
      ofElementData?_elementData children]
    rfl

theorem Element.ofDatum?_toDatum : (e : Element) → Element.ofDatum? e.toDatum = some e
  | .declaration d => by
    rw [Element.toDatum, Element.ofDatum?, MarkupDeclaration.ofDatum?_toDatum]
    rfl
  | .tag t => by
    rw [Element.toDatum, Element.ofDatum?, Tag.ofDatum?_toDatum t]
    rfl
  | .text _ => rfl

theorem ofElementData?_elementData : (es : List Element) →
    ofElementData? (elementData es) = some es
  | [] => rfl
  | e :: es => by
    rw [elementData, ofElementData?, Element.ofDatum?_toDatum e, ofElementData?_elementData es]
    rfl

end

theorem toList?_elementData (es : List Element) :
    toList? Element.ofDatum? (.list (elementData es)) = some es :=
  toList?_data rfl (fun _ _ => rfl) Element.ofDatum?_toDatum es

theorem Document.ofDatum?_toDatum (d : Document) : Document.ofDatum? d.toDatum = some d := by
  rw [Document.toDatum, Document.ofDatum?, toList?_elementData]
  rfl

end Scribe
