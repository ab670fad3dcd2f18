import Scribe.Proofs.Model.Datum
import Mathlib.Data.List.Forall2

/-!
The data from which a part of a model is got are its own, up to what is not looked at: the order and
repetition of modifiers, what a bare variant holds, and what a type argument is called that is no
type.
-/
namespace Scribe

open Json (Datum)
open Json.Datum (ofOption ofStrings toOption? toString? toBool? toList?)

/-- Data from which a value is got, given the data of the value. -/
inductive Source : Datum → Datum → Prop
  | same (d : Datum) : Source d d
  | list {es ds : List Datum} (items : List.Forall₂ Source es ds) : Source (.list es) (.list ds)
  | bare {es ds : List Datum} (bare : ∀ e ∈ es, ∃ name, e = .variant name .absent) :
    Source (.list es) (.list ds)
  | record {es ds : List Datum} (fields : List.Forall₂ Source es ds) :
    Source (.record es) (.record ds)
  | variant {e d : Datum} (name : String) (content : Source e d) :
    Source (.variant name e) (.variant name d)
  | unit (name : String) (d : Datum) : Source (.variant name .absent) (.variant name d)
  | wildcard {name : String} {e d : Datum} (other : name ≠ "type") (content : Source e d) :
    Source (.variant "wildcard" e) (.variant name d)

namespace Source

section

variable {f : α → Datum} {g : Datum → Option α} {d : Datum}

theorem optional {o : Option α} (h : ∀ d {a}, g d = some a → Source (f a) d)
    (ho : toOption? g d = some o) : Source (ofOption f o) d := by
  unfold toOption? at ho
  split at ho
  · obtain rfl := Option.some.inj ho
    exact .same _
  · obtain ⟨a, ha, rfl⟩ := Option.map_eq_some_iff.1 ho
    exact h d ha

theorem items {data : List α → List Datum} {ofData? : List Datum → Option (List α)}
    (hnil : data [] = []) (hcons : ∀ a as, data (a :: as) = f a :: data as) {ds : List Datum}
    {as : List α} (has : ofData? ds = some as) (hnil? : ofData? [] = some [])
    (hcons? : ∀ d ds, ofData? (d :: ds) = do return (← g d) :: (← ofData? ds))
    (h : ∀ d ∈ ds, ∀ {a}, g d = some a → Source (f a) d) :
    Source (.list (data as)) (.list ds) := by
  refine .list ?_
  induction ds generalizing as with
  | nil =>
    rw [hnil?] at has
    obtain rfl := Option.some.inj has
    rw [hnil]
    exact .nil
  | cons d ds ih =>
    rw [hcons?] at has
    obtain ⟨a, ha, htail⟩ := Option.bind_eq_some_iff.1 has
    obtain ⟨rest, hrest, heq⟩ := Option.bind_eq_some_iff.1 htail
    obtain rfl := Option.some.inj heq
    rw [List.forall_mem_cons] at h
    rw [hcons]
    exact .cons (h.1 ha) (ih hrest h.2)

theorem data {data : List α → List Datum} (hnil : data [] = [])
    (hcons : ∀ a as, data (a :: as) = f a :: data as)
    (h : ∀ d {a}, g d = some a → Source (f a) d) {as : List α} (has : toList? g d = some as) :
    Source (.list (data as)) d := by
  unfold toList? at has
  split at has
  · exact items hnil hcons has rfl (fun _ _ => List.mapM_cons) fun d _ => h d
  · cases has

theorem map {as : List α} (h : ∀ d {a}, g d = some a → Source (f a) d)
    (has : toList? g d = some as) : Source (.list (as.map f)) d :=
  data rfl (fun _ _ => rfl) h has

theorem string {s : String} (h : toString? d = some s) : Source (.string s) d := by
  unfold toString? at h
  split at h
  · obtain rfl := Option.some.inj h
    exact .same _
  · cases h

theorem bool {b : Bool} (h : toBool? d = some b) : Source (.bool b) d := by
  unfold toBool? at h
  split at h
  · obtain rfl := Option.some.inj h
    exact .same _
  · cases h

theorem optionalString {o : Option String} (h : toOption? toString? d = some o) :
    Source (ofOption .string o) d :=
  optional (fun _ _ => string) h

theorem strings {ss : List String} (h : toList? toString? d = some ss) : Source (ofStrings ss) d :=
  map (fun _ _ => string) h

end

variable {ds : List Datum}

theorem argumentItems {as : List TypeArgument}
    (h : ∀ d ∈ ds, ∀ {a}, TypeArgument.ofDatum? d = some a → Source a.toDatum d)
    (has : ofArgumentData? ds = some as) : Source (.list (argumentData as)) (.list ds) :=
  items rfl (fun _ _ => rfl) has rfl (fun _ _ => rfl) h

theorem typeItems {ts : List TypeRef}
    (h : ∀ d ∈ ds, ∀ {t}, TypeRef.ofDatum? d = some t → Source t.toDatum d)
    (hts : ofTypeData? ds = some ts) : Source (.list (typeData ts)) (.list ds) :=
  items rfl (fun _ _ => rfl) hts rfl (fun _ _ => rfl) h

theorem valueItems {vs : List Value}
    (h : ∀ d ∈ ds, ∀ {v}, Value.ofDatum? d = some v → Source v.toDatum d)
    (hvs : ofValueData? ds = some vs) : Source (.list (valueData vs)) (.list ds) :=
  items rfl (fun _ _ => rfl) hvs rfl (fun _ _ => rfl) h

theorem namedValueItems {vs : List NamedValue}
    (h : ∀ d ∈ ds, ∀ {v}, NamedValue.ofDatum? d = some v → Source v.toDatum d)
    (hvs : ofNamedValueData? ds = some vs) : Source (.list (namedValueData vs)) (.list ds) :=
  items rfl (fun _ _ => rfl) hvs rfl (fun _ _ => rfl) h

theorem annotationUseItems {us : List AnnotationUse}
    (h : ∀ d ∈ ds, ∀ {u}, AnnotationUse.ofDatum? d = some u → Source u.toDatum d)
    (hus : ofAnnotationUseData? ds = some us) : Source (.list (annotationUseData us)) (.list ds) :=
  items rfl (fun _ _ => rfl) hus rfl (fun _ _ => rfl) h

theorem fieldItems {fs : List Field}
    (h : ∀ d ∈ ds, ∀ {f}, Field.ofDatum? d = some f → Source f.toDatum d)
    (hfs : ofFieldData? ds = some fs) : Source (.list (fieldData fs)) (.list ds) :=
  items rfl (fun _ _ => rfl) hfs rfl (fun _ _ => rfl) h

theorem methodItems {ms : List Method}
    (h : ∀ d ∈ ds, ∀ {m}, Method.ofDatum? d = some m → Source m.toDatum d)
    (hms : ofMethodData? ds = some ms) : Source (.list (methodData ms)) (.list ds) :=
  items rfl (fun _ _ => rfl) hms rfl (fun _ _ => rfl) h

theorem typeDeclItems {xs : List TypeDecl}
    (h : ∀ d ∈ ds, ∀ {x}, TypeDecl.ofDatum? d = some x → Source x.toDatum d)
    (hxs : ofTypeDeclData? ds = some xs) : Source (.list (typeDeclData xs)) (.list ds) :=
  items rfl (fun _ _ => rfl) hxs rfl (fun _ _ => rfl) h

theorem elementItems {es : List Element}
    (h : ∀ d ∈ ds, ∀ {e}, Element.ofDatum? d = some e → Source e.toDatum d)
    (hes : ofElementData? ds = some es) : Source (.list (elementData es)) (.list ds) :=
  items rfl (fun _ _ => rfl) hes rfl (fun _ _ => rfl) h

end Source

/-! References to types. -/

theorem BoundKind.source (d : Datum) {k : BoundKind} (h : BoundKind.ofDatum? d = some k) :
    Source k.toDatum d := by
  unfold BoundKind.ofDatum? at h
  split at h
  · obtain rfl := Option.some.inj h
    exact .unit _ _
  · obtain rfl := Option.some.inj h
    exact .unit _ _
  · cases h

-- By the size of the data that are read, since a type holds arguments that hold types again.
mutual

theorem TypeRef.source (d : Datum) {t : TypeRef} (h : TypeRef.ofDatum? d = some t) :
    Source t.toDatum d := by
  rw [TypeRef.ofDatum?.eq_def] at h
  split at h
  · obtain ⟨arguments, harguments, h⟩ := Option.bind_eq_some_iff.1 h
    obtain rfl := Option.some.inj h
    exact .record (.cons (.same _)
      (.cons (.argumentItems (fun d _ => TypeArgument.source d) harguments)
        (.cons (.same _) .nil)))
  · cases h
termination_by sizeOf d

theorem TypeArgument.source (d : Datum) {a : TypeArgument} (h : TypeArgument.ofDatum? d = some a) :
    Source a.toDatum d := by
  rw [TypeArgument.ofDatum?.eq_def] at h
  split at h
  · split at h
    · next hname =>
      obtain ⟨t, ht, rfl⟩ := Option.map_eq_some_iff.1 h
      rw [hname]
      exact .variant _ (TypeRef.source _ ht)
    · next hname =>
      obtain ⟨g, hg, rfl⟩ := Option.map_eq_some_iff.1 h
      exact .wildcard hname (Generic.source _ hg)
  · cases h
termination_by sizeOf d

theorem Generic.source (d : Datum) {g : Generic} (h : Generic.ofDatum? d = some g) :
    Source g.toDatum d := by
  rw [Generic.ofDatum?.eq_def] at h
  split at h
  · simp only [Option.bind_eq_bind, Option.bind_eq_some_iff, Option.pure_def] at h
    obtain ⟨name, hname, bounds, hbounds, kind, hkind, h⟩ := h
    obtain rfl := Option.some.inj h
    exact .record (.cons (.optionalString hname)
      (.cons (.typeItems (fun d _ => TypeRef.source d) hbounds)
        (.cons (BoundKind.source _ hkind) .nil)))
  · cases h
termination_by sizeOf d

end

variable {d : Datum}

theorem Source.optionalType {t : Option TypeRef} (h : toOption? TypeRef.ofDatum? d = some t) :
    Source (ofOption TypeRef.toDatum t) d :=
  .optional TypeRef.source h

theorem Source.types {ts : List TypeRef} (h : toList? TypeRef.ofDatum? d = some ts) :
    Source (.list (typeData ts)) d :=
  .data rfl (fun _ _ => rfl) TypeRef.source h

theorem Source.generics {gs : List Generic} (h : toList? Generic.ofDatum? d = some gs) :
    Source (.list (gs.map Generic.toDatum)) d :=
  .map Generic.source h

/-! Modifiers, comments and numbers. -/

theorem Modifiers.source (d : Datum) {s : Modifiers} (h : Modifiers.ofDatum? d = some s) :
    Source s.toDatum d := by
  cases d with
  | list ds =>
    refine .bare fun e he => ?_
    obtain ⟨m, -, rfl⟩ := List.mem_map.1 he
    exact ⟨m.keyword, rfl⟩
  | _ => cases h

theorem JavadocTag.source (d : Datum) {t : JavadocTag} (h : JavadocTag.ofDatum? d = some t) :
    Source t.toDatum d := by
  unfold JavadocTag.ofDatum? at h
  split at h
  · obtain ⟨value, hvalue, h⟩ := Option.bind_eq_some_iff.1 h
    obtain ⟨text, htext, h⟩ := Option.bind_eq_some_iff.1 h
    obtain rfl := Option.some.inj h
    exact .record (.cons (.same _) (.cons (.optionalString hvalue)
      (.cons (.optionalString htext) .nil)))
  · cases h

theorem Javadoc.source (d : Datum) {j : Javadoc}
    (h : Javadoc.ofDatum? d = some j) : Source j.toDatum d := by
  unfold Javadoc.ofDatum? at h
  split at h
  · obtain ⟨tags, htags, h⟩ := Option.bind_eq_some_iff.1 h
    obtain rfl := Option.some.inj h
    exact .record (.cons (.same _) (.cons (.map JavadocTag.source htags) .nil))
  · cases h

theorem Source.optionalJavadoc {j : Option Javadoc} (h : toOption? Javadoc.ofDatum? d = some j) :
    Source (ofOption Javadoc.toDatum j) d :=
  .optional Javadoc.source h

theorem Number.source (d : Datum) {n : Number}
    (h : Number.ofDatum? d = some n) : Source n.toDatum d := by
  unfold Number.ofDatum? at h
  split at h
  case h_5 => cases h
  all_goals
    obtain rfl := Option.some.inj h
    exact .same _

/-! Values and members. -/

mutual

theorem Value.source (d : Datum) {v : Value} (h : Value.ofDatum? d = some v) :
    Source v.toDatum d := by
  rw [Value.ofDatum?.eq_def] at h
  split at h
  · obtain ⟨items, hitems, rfl⟩ := Option.map_eq_some_iff.1 h
    exact .variant _ (.valueItems (fun d _ => Value.source d) hitems)
  · obtain rfl := Option.some.inj h
    exact .same _
  · obtain ⟨type, htype, rfl⟩ := Option.map_eq_some_iff.1 h
    exact .variant _ (.record (.cons (TypeRef.source _ htype) (.cons (.same _) .nil)))
  · obtain ⟨n, hn, rfl⟩ := Option.map_eq_some_iff.1 h
    exact .variant _ (Number.source _ hn)
  · obtain rfl := Option.some.inj h
    exact .same _
  · obtain rfl := Option.some.inj h
    exact .same _
  · obtain rfl := Option.some.inj h
    exact .unit _ _
  · simp only [Option.bind_eq_bind, Option.bind_eq_some_iff, Option.pure_def] at h
    obtain ⟨target, htarget, arguments, harguments, h⟩ := h
    obtain rfl := Option.some.inj h
    exact .variant _ (.record (.cons (.optionalType htarget) (.cons (.same _)
      (.cons (.valueItems (fun d _ => Value.source d) harguments) .nil))))
  · obtain ⟨body, hbody, rfl⟩ := Option.map_eq_some_iff.1 h
    exact .variant _ (Anonymous.source _ hbody)
  · cases h
termination_by sizeOf d

theorem Anonymous.source (d : Datum) {a : Anonymous} (h : Anonymous.ofDatum? d = some a) :
    Source a.toDatum d := by
  rw [Anonymous.ofDatum?.eq_def] at h
  split at h
  · simp only [Option.bind_eq_bind, Option.bind_eq_some_iff, Option.pure_def] at h
    obtain ⟨type, htype, arguments, harguments, fields, hfields, methods, hmethods, h⟩ := h
    obtain rfl := Option.some.inj h
    exact .record (.cons (TypeRef.source _ htype)
      (.cons (.valueItems (fun d _ => Value.source d) harguments)
        (.cons (.fieldItems (fun d _ => Field.source d) hfields)
          (.cons (.methodItems (fun d _ => Method.source d) hmethods) .nil))))
  · cases h
termination_by sizeOf d

theorem NamedValue.source (d : Datum) {v : NamedValue} (h : NamedValue.ofDatum? d = some v) :
    Source v.toDatum d := by
  rw [NamedValue.ofDatum?.eq_def] at h
  split at h
  · obtain ⟨value, hvalue, rfl⟩ := Option.map_eq_some_iff.1 h
    exact .record (.cons (.same _) (.cons (Value.source _ hvalue) .nil))
  · cases h
termination_by sizeOf d

theorem AnnotationUse.source (d : Datum) {u : AnnotationUse}
    (h : AnnotationUse.ofDatum? d = some u) : Source u.toDatum d := by
  rw [AnnotationUse.ofDatum?.eq_def] at h
  split at h
  · split at h
    all_goals
      simp only [Option.bind_eq_bind, Option.bind_eq_some_iff, Option.pure_def] at h
      obtain ⟨value, hvalue, type, htype, values, hvalues, h⟩ := h
      obtain rfl := Option.some.inj h
      refine .record (.cons (TypeRef.source _ htype) (.cons ?_
        (.cons (.namedValueItems (fun d _ => NamedValue.source d) hvalues) .nil)))
    · obtain rfl := Option.some.inj hvalue
      exact .same _
    · obtain ⟨v, hv, rfl⟩ := Option.map_eq_some_iff.1 hvalue
      exact Value.source _ hv
  · cases h
termination_by sizeOf d

theorem Field.source (d : Datum) {f : Field} (h : Field.ofDatum? d = some f) :
    Source f.toDatum d := by
  rw [Field.ofDatum?.eq_def] at h
  split at h
  · split at h
    all_goals
      simp only [Option.bind_eq_bind, Option.bind_eq_some_iff, Option.pure_def] at h
      obtain ⟨value, hvalue, type, htype, javadoc, hjavadoc, annotations, hannotations, modifiers,
        hmodifiers, h⟩ := h
      obtain rfl := Option.some.inj h
      refine .record (.cons (.same _) (.cons (TypeRef.source _ htype)
        (.cons (.optionalJavadoc hjavadoc)
          (.cons (.annotationUseItems (fun d _ => AnnotationUse.source d) hannotations)
            (.cons (Modifiers.source _ hmodifiers) (.cons ?_ .nil))))))
    · obtain rfl := Option.some.inj hvalue
      exact .same _
    · obtain ⟨v, hv, rfl⟩ := Option.map_eq_some_iff.1 hvalue
      exact Value.source _ hv
  · cases h
termination_by sizeOf d

theorem Method.source (d : Datum) {m : Method} (h : Method.ofDatum? d = some m) :
    Source m.toDatum d := by
  rw [Method.ofDatum?.eq_def] at h
  split at h
  · simp only [Option.bind_eq_bind, Option.bind_eq_some_iff, Option.pure_def] at h
    obtain ⟨javadoc, hjavadoc, annotations, hannotations, modifiers, hmodifiers, generics,
      hgenerics, type, htype, fields, hfields, exceptions, hexceptions, code, hcode, h⟩ := h
    obtain rfl := Option.some.inj h
    exact .record (.cons (.same _) (.cons (.optionalJavadoc hjavadoc)
      (.cons (.annotationUseItems (fun d _ => AnnotationUse.source d) hannotations)
        (.cons (Modifiers.source _ hmodifiers) (.cons (.generics hgenerics)
          (.cons (TypeRef.source _ htype) (.cons (.fieldItems (fun d _ => Field.source d) hfields)
            (.cons (.types hexceptions) (.cons (.strings hcode) (.cons (.same _) .nil))))))))))
  · cases h
termination_by sizeOf d

end

theorem Source.values {vs : List Value} (h : toList? Value.ofDatum? d = some vs) :
    Source (.list (valueData vs)) d :=
  .data rfl (fun _ _ => rfl) Value.source h

theorem Source.annotationUses {us : List AnnotationUse}
    (h : toList? AnnotationUse.ofDatum? d = some us) :
    Source (.list (annotationUseData us)) d :=
  .data rfl (fun _ _ => rfl) AnnotationUse.source h

theorem Source.fields {fs : List Field} (h : toList? Field.ofDatum? d = some fs) :
    Source (.list (fieldData fs)) d :=
  .data rfl (fun _ _ => rfl) Field.source h

theorem Source.methods {ms : List Method} (h : toList? Method.ofDatum? d = some ms) :
    Source (.list (methodData ms)) d :=
  .data rfl (fun _ _ => rfl) Method.source h

/-! Declarations and files. -/

theorem Import.source (d : Datum) {i : Import} (h : Import.ofDatum? d = some i) :
    Source i.toDatum d := by
  unfold Import.ofDatum? at h
  split at h
  · simp only [Option.bind_eq_bind, Option.bind_eq_some_iff, Option.pure_def] at h
    obtain ⟨type, htype, member, hmember, h⟩ := h
    obtain rfl := Option.some.inj h
    exact .record (.cons (TypeRef.source _ htype) (.cons (.optionalString hmember) .nil))
  · cases h

theorem Initializer.source (d : Datum) {i : Initializer} (h : Initializer.ofDatum? d = some i) :
    Source i.toDatum d := by
  unfold Initializer.ofDatum? at h
  split at h
  · simp only [Option.bind_eq_bind, Option.bind_eq_some_iff, Option.pure_def] at h
    obtain ⟨code, hcode, h⟩ := h
    obtain rfl := Option.some.inj h
    exact .record (.cons (.same _) (.cons (.strings hcode) .nil))
  · cases h

theorem Constructor.source (d : Datum) {c : Constructor} (h : Constructor.ofDatum? d = some c) :
    Source c.toDatum d := by
  unfold Constructor.ofDatum? at h
  split at h
  · simp only [Option.bind_eq_bind, Option.bind_eq_some_iff, Option.pure_def] at h
    obtain ⟨javadoc, hjavadoc, annotations, hannotations, modifiers, hmodifiers, fields, hfields,
      exceptions, hexceptions, code, hcode, h⟩ := h
    obtain rfl := Option.some.inj h
    exact .record (.cons (.optionalJavadoc hjavadoc) (.cons (.annotationUses hannotations)
      (.cons (Modifiers.source _ hmodifiers) (.cons (.fields hfields)
        (.cons (.types hexceptions) (.cons (.strings hcode) (.cons (.same _) .nil)))))))
  · cases h

theorem EnumConstant.source (d : Datum) {c : EnumConstant} (h : EnumConstant.ofDatum? d = some c) :
    Source c.toDatum d := by
  unfold EnumConstant.ofDatum? at h
  split at h
  · simp only [Option.bind_eq_bind, Option.bind_eq_some_iff, Option.pure_def] at h
    obtain ⟨javadoc, hjavadoc, values, hvalues, fields, hfields, methods, hmethods, h⟩ := h
    obtain rfl := Option.some.inj h
    exact .record (.cons (.same _) (.cons (.optionalJavadoc hjavadoc)
      (.cons (.values hvalues) (.cons (.fields hfields) (.cons (.methods hmethods) .nil)))))
  · cases h

theorem AnnotationDecl.source (d : Datum) {x : AnnotationDecl}
    (h : AnnotationDecl.ofDatum? d = some x) :
    Source x.toDatum d := by
  unfold AnnotationDecl.ofDatum? at h
  split at h
  · simp only [Option.bind_eq_bind, Option.bind_eq_some_iff, Option.pure_def] at h
    obtain ⟨javadoc, hjavadoc, annotations, hannotations, modifiers, hmodifiers, fields, hfields,
      h⟩ := h
    obtain rfl := Option.some.inj h
    exact .record (.cons (.same _) (.cons (.optionalJavadoc hjavadoc)
      (.cons (.annotationUses hannotations) (.cons (Modifiers.source _ hmodifiers)
        (.cons (.fields hfields) .nil)))))
  · cases h

mutual

theorem ClassDecl.source (d : Datum) {x : ClassDecl} (h : ClassDecl.ofDatum? d = some x) :
    Source x.toDatum d := by
  rw [ClassDecl.ofDatum?.eq_def] at h
  split at h
  · simp only [Option.bind_eq_bind, Option.bind_eq_some_iff, Option.pure_def] at h
    obtain ⟨javadoc, hjavadoc, annotations, hannotations, modifiers, hmodifiers, generics,
      hgenerics, supertype, hsupertype, interfaces, hinterfaces, fields, hfields, initializers,
      hinitializers, constructors, hconstructors, methods, hmethods, classes, hclasses, h⟩ := h
    obtain rfl := Option.some.inj h
    exact .record (.cons (.same _) (.cons (.optionalJavadoc hjavadoc)
      (.cons (.annotationUses hannotations) (.cons (Modifiers.source _ hmodifiers)
        (.cons (.generics hgenerics) (.cons (.optionalType hsupertype)
          (.cons (.types hinterfaces) (.cons (.fields hfields)
            (.cons (.map Initializer.source hinitializers)
              (.cons (.map Constructor.source hconstructors) (.cons (.methods hmethods)
                (.cons (.typeDeclItems (fun d _ => TypeDecl.source d) hclasses) .nil))))))))))))
  · cases h
termination_by sizeOf d

theorem InterfaceDecl.source (d : Datum) {x : InterfaceDecl}
    (h : InterfaceDecl.ofDatum? d = some x) :
    Source x.toDatum d := by
  rw [InterfaceDecl.ofDatum?.eq_def] at h
  split at h
  · simp only [Option.bind_eq_bind, Option.bind_eq_some_iff, Option.pure_def] at h
    obtain ⟨javadoc, hjavadoc, annotations, hannotations, modifiers, hmodifiers, generics,
      hgenerics, interfaces, hinterfaces, fields, hfields, methods, hmethods, classes, hclasses,
      h⟩ := h
    obtain rfl := Option.some.inj h
    exact .record (.cons (.same _) (.cons (.optionalJavadoc hjavadoc)
      (.cons (.annotationUses hannotations) (.cons (Modifiers.source _ hmodifiers)
        (.cons (.generics hgenerics) (.cons (.types hinterfaces) (.cons (.fields hfields)
          (.cons (.methods hmethods)
            (.cons (.typeDeclItems (fun d _ => TypeDecl.source d) hclasses) .nil)))))))))
  · cases h
termination_by sizeOf d

theorem EnumDecl.source (d : Datum) {x : EnumDecl} (h : EnumDecl.ofDatum? d = some x) :
    Source x.toDatum d := by
  rw [EnumDecl.ofDatum?.eq_def] at h
  split at h
  · simp only [Option.bind_eq_bind, Option.bind_eq_some_iff, Option.pure_def] at h
    obtain ⟨javadoc, hjavadoc, annotations, hannotations, modifiers, hmodifiers, interfaces,
      hinterfaces, constants, hconstants, fields, hfields, initializers, hinitializers,
      constructors, hconstructors, methods, hmethods, classes, hclasses, h⟩ := h
    obtain rfl := Option.some.inj h
    exact .record (.cons (.same _) (.cons (.optionalJavadoc hjavadoc)
      (.cons (.annotationUses hannotations) (.cons (Modifiers.source _ hmodifiers)
        (.cons (.types hinterfaces) (.cons (.map EnumConstant.source hconstants)
          (.cons (.fields hfields) (.cons (.map Initializer.source hinitializers)
            (.cons (.map Constructor.source hconstructors) (.cons (.methods hmethods)
              (.cons (.typeDeclItems (fun d _ => TypeDecl.source d) hclasses) .nil)))))))))))
  · cases h
termination_by sizeOf d

theorem TypeDecl.source (d : Datum) {x : TypeDecl} (h : TypeDecl.ofDatum? d = some x) :
    Source x.toDatum d := by
  rw [TypeDecl.ofDatum?.eq_def] at h
  split at h
  · obtain ⟨y, hy, rfl⟩ := Option.map_eq_some_iff.1 h
    exact .variant _ (ClassDecl.source _ hy)
  · obtain ⟨y, hy, rfl⟩ := Option.map_eq_some_iff.1 h
    exact .variant _ (InterfaceDecl.source _ hy)
  · obtain ⟨y, hy, rfl⟩ := Option.map_eq_some_iff.1 h
    exact .variant _ (EnumDecl.source _ hy)
  · obtain ⟨y, hy, rfl⟩ := Option.map_eq_some_iff.1 h
    exact .variant _ (AnnotationDecl.source _ hy)
  · cases h
termination_by sizeOf d

end

theorem Source.typeDecls {xs : List TypeDecl} (h : toList? TypeDecl.ofDatum? d = some xs) :
    Source (.list (typeDeclData xs)) d :=
  .data rfl (fun _ _ => rfl) TypeDecl.source h

theorem File.source (d : Datum) {f : File} (h : File.ofDatum? d = some f) :
    Source f.toDatum d := by
  unfold File.ofDatum? at h
  split at h
  · simp only [Option.bind_eq_bind, Option.bind_eq_some_iff, Option.pure_def] at h
    obtain ⟨javadoc, hjavadoc, imports, himports, classes, hclasses, h⟩ := h
    obtain rfl := Option.some.inj h
    exact .record (.cons (.same _) (.cons (.optionalJavadoc hjavadoc)
      (.cons (.map Import.source himports) (.cons (.typeDecls hclasses) .nil))))
  · cases h

/-! Markup. -/

theorem MarkupDeclaration.source (d : Datum) {x : MarkupDeclaration}
    (h : MarkupDeclaration.ofDatum? d = some x) :
    Source x.toDatum d := by
  unfold MarkupDeclaration.ofDatum? at h
  split at h
  · simp only [Option.bind_eq_bind, Option.bind_eq_some_iff, Option.pure_def] at h
    obtain ⟨encoding, hencoding, standalone, hstandalone, h⟩ := h
    obtain rfl := Option.some.inj h
    exact .record (.cons (.same _) (.cons (.optionalString hencoding)
      (.cons (.optional (fun _ _ => .bool) hstandalone) .nil)))
  · cases h

theorem Attribute.source (d : Datum) {a : Attribute} (h : Attribute.ofDatum? d = some a) :
    Source a.toDatum d := by
  unfold Attribute.ofDatum? at h
  split at h
  · simp only [Option.bind_eq_bind, Option.bind_eq_some_iff, Option.pure_def] at h
    obtain ⟨value, hvalue, h⟩ := h
    obtain rfl := Option.some.inj h
    exact .record (.cons (.same _) (.cons (.optionalString hvalue) .nil))
  · cases h

theorem CharacterData.source (d : Datum) {t : CharacterData}
    (h : CharacterData.ofDatum? d = some t) :
    Source t.toDatum d := by
  obtain ⟨s, hs, rfl⟩ := Option.map_eq_some_iff.1 h
  exact .string hs

mutual

theorem Tag.source (d : Datum) {t : Tag} (h : Tag.ofDatum? d = some t) :
    Source t.toDatum d := by
  rw [Tag.ofDatum?.eq_def] at h
  split at h
  · simp only [Option.bind_eq_bind, Option.bind_eq_some_iff, Option.pure_def] at h
    obtain ⟨attributes, hattributes, children, hchildren, h⟩ := h
    obtain rfl := Option.some.inj h
    exact .record (.cons (.same _) (.cons (.map Attribute.source hattributes)
      (.cons (.elementItems (fun d _ => Element.source d) hchildren) .nil)))
  · cases h
termination_by sizeOf d

theorem Element.source (d : Datum) {e : Element} (h : Element.ofDatum? d = some e) :
    Source e.toDatum d := by
  rw [Element.ofDatum?.eq_def] at h
  split at h
  · obtain ⟨y, hy, rfl⟩ := Option.map_eq_some_iff.1 h
    exact .variant _ (MarkupDeclaration.source _ hy)
  · obtain ⟨y, hy, rfl⟩ := Option.map_eq_some_iff.1 h
    exact .variant _ (Tag.source _ hy)
  · obtain ⟨y, hy, rfl⟩ := Option.map_eq_some_iff.1 h
    exact .variant _ (CharacterData.source _ hy)
  · cases h
termination_by sizeOf d

end

theorem Source.elements {es : List Element} (h : toList? Element.ofDatum? d = some es) :
    Source (.list (elementData es)) d :=
  .data rfl (fun _ _ => rfl) Element.source h

theorem Document.source (d : Datum) {x : Document} (h : Document.ofDatum? d = some x) :
    Source x.toDatum d := by
  unfold Document.ofDatum? at h
  split at h
  · simp only [Option.bind_eq_bind, Option.bind_eq_some_iff, Option.pure_def] at h
    obtain ⟨elements, helements, h⟩ := h
    obtain rfl := Option.some.inj h
    exact .record (.cons (.elements helements) .nil)
  · cases h

end Scribe
