import Scribe.Model.Schema
import Scribe.Model.Datum.Markup
import Scribe.Model.Datum.TypeDecl
import Scribe.Proofs.Json.Schema

/-!
The data of every part of a model has the form that the schema describes.
-/
namespace Scribe

open Json (Datum Typed TypedItems TypedFields Shape Schema)
open Json.Datum (ofOption ofStrings)

theorem Form.coherent_describe (n : Form) : (Form.describe n).coherent := by
  cases n <;> decide

namespace Json

variable {N : Type} {schema : Schema N} {s : Shape N}

theorem typedItems_data {f : α → Datum} {data : List α → List Datum} (hnil : data [] = [])
    (hcons : ∀ a as, data (a :: as) = f a :: data as) (h : ∀ a, Typed schema s (f a))
    (as : List α) : TypedItems schema s (data as) := by
  induction as with
  | nil => exact hnil ▸ .nil s
  | cons a as ih => exact hcons a as ▸ .cons (h a) ih

theorem typedItems_map {f : α → Datum} (h : ∀ a, Typed schema s (f a)) (as : List α) :
    TypedItems schema s (as.map f) :=
  typedItems_data rfl (fun _ _ => rfl) h as

theorem typedFields_option {f : Field N} {fs : List (Field N)} {g : α → Datum} {o : Option α}
    {ds : List Datum} (hoptional : f.presence = .optional) (h : ∀ a ∈ o, Typed schema f.shape (g a))
    (tail : TypedFields schema fs ds) : TypedFields schema (f :: fs) (ofOption g o :: ds) := by
  cases o with
  | none => exact .absent hoptional tail
  | some a => exact .cons (h a rfl) tail

theorem typed_strings (ss : List String) : Typed schema (.list .string) (ofStrings ss) :=
  .list (typedItems_map .string ss)

end Json

open Json (typedItems_data typedItems_map typedFields_option typed_strings)

/-! References to types. -/

theorem BoundKind.typed (k : BoundKind) : Typed Form.describe (.named .boundKind) k.toDatum := by
  cases k <;> exact .unit rfl rfl

mutual

theorem TypeRef.typed : (t : TypeRef) → Typed Form.describe (.named .type) t.toDatum
  | ⟨name, arguments, dimensions⟩ =>
    .shorthand rfl (.cons (.string name) (.cons (.list (typedItems_arguments arguments))
      (.cons (.size dimensions) .nil)))

theorem TypeArgument.typed : (a : TypeArgument) →
    Typed Form.describe (.named .typeArgument) a.toDatum
  | .type ⟨name, arguments, dimensions⟩ =>
    .first rfl (.cons (.string name) (.cons (.list (typedItems_arguments arguments))
      (.cons (.size dimensions) .nil)))
  | .wildcard ⟨_, bounds, kind⟩ =>
    .second rfl (typedFields_option rfl (fun _ _ => .string _)
      (.cons (.list (typedItems_types bounds)) (.cons kind.typed .nil)))

theorem typedItems_arguments : (as : List TypeArgument) →
    TypedItems Form.describe (.named .typeArgument) (argumentData as)
  | [] => .nil _
  | a :: as => .cons a.typed (typedItems_arguments as)

theorem typedItems_types : (ts : List TypeRef) →
    TypedItems Form.describe (.named .type) (typeData ts)
  | [] => .nil _
  | t :: ts => .cons t.typed (typedItems_types ts)

end

theorem Generic.typed (g : Generic) : Typed Form.describe (.named .generic) g.toDatum := by
  obtain ⟨_, bounds, kind⟩ := g
  exact .record rfl (typedFields_option rfl (fun _ _ => .string _)
    (.cons (.list (typedItems_types bounds)) (.cons kind.typed .nil)))

/-! Modifiers, comments and numbers. -/

theorem Modifier.typed (m : Modifier) :
    Typed Form.describe (.named .modifier) (.variant m.keyword .absent) := by
  cases m <;> exact .unit rfl rfl

theorem Modifiers.typed (s : Modifiers) :
    Typed Form.describe (.list (.named .modifier)) s.toDatum :=
  .list (typedItems_map Modifier.typed s.toList)

theorem JavadocTag.typed (t : JavadocTag) :
    Typed Form.describe (.named .javadocTag) t.toDatum :=
  .record rfl (.cons (.string t.name) (typedFields_option rfl (fun _ _ => .string _)
    (typedFields_option rfl (fun _ _ => .string _) .nil)))

theorem Javadoc.typed (j : Javadoc) : Typed Form.describe (.named .javadoc) j.toDatum :=
  .record rfl (.cons (.string j.text) (.cons (.list (typedItems_map JavadocTag.typed j.tags)) .nil))

theorem Number.typed : (n : Number) → Typed Form.describe (.named .number) n.toDatum
  | .int i | .long i => .choice rfl rfl (.integer i)
  | .float x => .choice rfl rfl (.binary32 x)
  | .double x => .choice rfl rfl (.binary64 x)

theorem typedItems_generics (gs : List Generic) :
    TypedItems Form.describe (.named .generic) (gs.map Generic.toDatum) :=
  typedItems_map Generic.typed gs

/-! Values and members. -/

mutual

theorem Value.typed : (v : Value) → Typed Form.describe (.named .value) v.toDatum
  | .array items => .choice rfl rfl (.list (typedItems_values items))
  | .boolean b => .choice rfl rfl (.bool b)
  | .enumConstant type constant =>
    .choice rfl rfl (.record rfl (.cons type.typed (.cons (.string constant) .nil)))
  | .number n => .choice rfl rfl n.typed
  | .reference e => .choice rfl rfl (.string e)
  | .text s => .choice rfl rfl (.string s)
  | .null => .unit rfl rfl
  | .invocation _ name arguments =>
    .choice rfl rfl (.record rfl (typedFields_option rfl (fun t _ => t.typed)
      (.cons (.string name) (.cons (.list (typedItems_values arguments)) .nil))))
  | .anonymous body => .choice rfl rfl body.typed

theorem Anonymous.typed : (a : Anonymous) → Typed Form.describe (.named .anonymous) a.toDatum
  | ⟨type, arguments, fields, methods⟩ =>
    .record rfl (.cons type.typed (.cons (.list (typedItems_values arguments))
      (.cons (.list (typedItems_fields fields)) (.cons (.list (typedItems_methods methods)) .nil))))

theorem NamedValue.typed : (v : NamedValue) → Typed Form.describe (.named .namedValue) v.toDatum
  | ⟨name, value⟩ => .record rfl (.cons (.string name) (.cons value.typed .nil))

theorem AnnotationUse.typed : (u : AnnotationUse) →
    Typed Form.describe (.named .annotationUse) u.toDatum
  | ⟨type, none, values⟩ =>
    .record rfl (.cons type.typed (.absent rfl (.cons (.list (typedItems_namedValues values)) .nil)))
  | ⟨type, some value, values⟩ =>
    .record rfl (.cons type.typed (.cons value.typed
      (.cons (.list (typedItems_namedValues values)) .nil)))

theorem Field.typed : (f : Field) → Typed Form.describe (.named .field) f.toDatum
  | ⟨name, type, _, annotations, modifiers, none⟩ =>
    .record rfl (.cons (.string name) (.cons type.typed (typedFields_option rfl (fun j _ => j.typed)
      (.cons (.list (typedItems_annotationUses annotations)) (.cons modifiers.typed
        (.absent rfl .nil))))))
  | ⟨name, type, _, annotations, modifiers, some value⟩ =>
    .record rfl (.cons (.string name) (.cons type.typed (typedFields_option rfl (fun j _ => j.typed)
      (.cons (.list (typedItems_annotationUses annotations)) (.cons modifiers.typed
        (.cons value.typed .nil))))))

theorem Method.typed : (m : Method) → Typed Form.describe (.named .method) m.toDatum
  | ⟨name, _, annotations, modifiers, generics, type, fields, exceptions, code, tripleDot⟩ =>
    .record rfl (.cons (.string name) (typedFields_option rfl (fun j _ => j.typed)
      (.cons (.list (typedItems_annotationUses annotations)) (.cons modifiers.typed
        (.cons (.list (typedItems_generics generics)) (.cons type.typed
          (.cons (.list (typedItems_fields fields)) (.cons (.list (typedItems_types exceptions))
            (.cons (typed_strings code) (.cons (.bool tripleDot) .nil))))))))))

theorem typedItems_values : (vs : List Value) →
    TypedItems Form.describe (.named .value) (valueData vs)
  | [] => .nil _
  | v :: vs => .cons v.typed (typedItems_values vs)

theorem typedItems_namedValues : (vs : List NamedValue) →
    TypedItems Form.describe (.named .namedValue) (namedValueData vs)
  | [] => .nil _
  | v :: vs => .cons v.typed (typedItems_namedValues vs)

theorem typedItems_annotationUses : (us : List AnnotationUse) →
    TypedItems Form.describe (.named .annotationUse) (annotationUseData us)
  | [] => .nil _
  | u :: us => .cons u.typed (typedItems_annotationUses us)

theorem typedItems_fields : (fs : List Field) →
    TypedItems Form.describe (.named .field) (fieldData fs)
  | [] => .nil _
  | f :: fs => .cons f.typed (typedItems_fields fs)

theorem typedItems_methods : (ms : List Method) →
    TypedItems Form.describe (.named .method) (methodData ms)
  | [] => .nil _
  | m :: ms => .cons m.typed (typedItems_methods ms)

end

/-! Declarations and files. -/

theorem Import.typed (i : Import) : Typed Form.describe (.named .importDecl) i.toDatum :=
  .record rfl (.cons i.type.typed (typedFields_option rfl (fun _ _ => .string _) .nil))

theorem Initializer.typed (i : Initializer) :
    Typed Form.describe (.named .initializer) i.toDatum :=
  .record rfl (.cons (.bool i.isStatic) (.cons (typed_strings i.code) .nil))

theorem Constructor.typed (c : Constructor) :
    Typed Form.describe (.named .constructor) c.toDatum :=
  .record rfl (typedFields_option rfl (fun j _ => j.typed)
    (.cons (.list (typedItems_annotationUses c.annotations)) (.cons c.modifiers.typed
      (.cons (.list (typedItems_fields c.fields)) (.cons (.list (typedItems_types c.exceptions))
        (.cons (typed_strings c.code) (.cons (.bool c.tripleDot) .nil)))))))

theorem EnumConstant.typed (c : EnumConstant) :
    Typed Form.describe (.named .enumConstant) c.toDatum :=
  .record rfl (.cons (.string c.name) (typedFields_option rfl (fun j _ => j.typed)
    (.cons (.list (typedItems_values c.values)) (.cons (.list (typedItems_fields c.fields))
      (.cons (.list (typedItems_methods c.methods)) .nil)))))

theorem AnnotationDecl.typed (d : AnnotationDecl) :
    Typed Form.describe (.named .annotationDecl) d.toDatum :=
  .record rfl (.cons (.string d.name) (typedFields_option rfl (fun j _ => j.typed)
    (.cons (.list (typedItems_annotationUses d.annotations)) (.cons d.modifiers.typed
      (.cons (.list (typedItems_fields d.fields)) .nil)))))

mutual

theorem ClassDecl.typed : (d : ClassDecl) → Typed Form.describe (.named .classDecl) d.toDatum
  | ⟨name, _, annotations, modifiers, generics, _, interfaces, fields, initializers, constructors,
      methods, classes⟩ =>
    .record rfl (.cons (.string name) (typedFields_option rfl (fun j _ => j.typed)
      (.cons (.list (typedItems_annotationUses annotations)) (.cons modifiers.typed
        (.cons (.list (typedItems_generics generics)) (typedFields_option rfl (fun t _ => t.typed)
          (.cons (.list (typedItems_types interfaces)) (.cons (.list (typedItems_fields fields))
            (.cons (.list (typedItems_map Initializer.typed initializers))
              (.cons (.list (typedItems_map Constructor.typed constructors))
                (.cons (.list (typedItems_methods methods))
                  (.cons (.list (typedItems_typeDecls classes)) .nil))))))))))))

theorem InterfaceDecl.typed : (d : InterfaceDecl) →
    Typed Form.describe (.named .interfaceDecl) d.toDatum
  | ⟨name, _, annotations, modifiers, generics, interfaces, fields, methods, classes⟩ =>
    .record rfl (.cons (.string name) (typedFields_option rfl (fun j _ => j.typed)
      (.cons (.list (typedItems_annotationUses annotations)) (.cons modifiers.typed
        (.cons (.list (typedItems_generics generics)) (.cons (.list (typedItems_types interfaces))
          (.cons (.list (typedItems_fields fields)) (.cons (.list (typedItems_methods methods))
            (.cons (.list (typedItems_typeDecls classes)) .nil)))))))))

theorem EnumDecl.typed : (d : EnumDecl) → Typed Form.describe (.named .enumDecl) d.toDatum
  | ⟨name, _, annotations, modifiers, interfaces, constants, fields, initializers, constructors,
      methods, classes⟩ =>
    .record rfl (.cons (.string name) (typedFields_option rfl (fun j _ => j.typed)
      (.cons (.list (typedItems_annotationUses annotations)) (.cons modifiers.typed
        (.cons (.list (typedItems_types interfaces))
          (.cons (.list (typedItems_map EnumConstant.typed constants))
            (.cons (.list (typedItems_fields fields))
              (.cons (.list (typedItems_map Initializer.typed initializers))
                (.cons (.list (typedItems_map Constructor.typed constructors))
                  (.cons (.list (typedItems_methods methods))
                    (.cons (.list (typedItems_typeDecls classes)) .nil)))))))))))

theorem TypeDecl.typed : (d : TypeDecl) → Typed Form.describe (.named .typeDecl) d.toDatum
  | .classDecl d => .choice rfl rfl d.typed
  | .interfaceDecl d => .choice rfl rfl d.typed
  | .enumDecl d => .choice rfl rfl d.typed
  | .annotationDecl d => .choice rfl rfl d.typed

theorem typedItems_typeDecls : (ds : List TypeDecl) →
    TypedItems Form.describe (.named .typeDecl) (typeDeclData ds)
  | [] => .nil _
  | d :: ds => .cons d.typed (typedItems_typeDecls ds)

end

theorem File.typed (f : File) : Typed Form.describe (.named .file) f.toDatum :=
  .record rfl (.cons (.string f.name) (typedFields_option rfl (fun j _ => j.typed)
    (.cons (.list (typedItems_map Import.typed f.imports))
      (.cons (.list (typedItems_typeDecls f.classes)) .nil))))

/-! Markup. -/

theorem MarkupDeclaration.typed (d : MarkupDeclaration) :
    Typed Form.describe (.named .declaration) d.toDatum :=
  .record rfl (.cons (.string d.version) (typedFields_option rfl (fun _ _ => .string _)
    (typedFields_option rfl (fun _ _ => .bool _) .nil)))

theorem Attribute.typed (a : Attribute) :
    Typed Form.describe (.named .tagAttribute) a.toDatum :=
  .record rfl (.cons (.string a.name) (typedFields_option rfl (fun _ _ => .string _) .nil))

mutual

theorem Tag.typed : (t : Tag) → Typed Form.describe (.named .tag) t.toDatum
  | ⟨name, attributes, children⟩ =>
    .record rfl (.cons (.string name) (.cons (.list (typedItems_map Attribute.typed attributes))
      (.cons (.list (typedItems_elements children)) .nil)))

theorem Element.typed : (e : Element) → Typed Form.describe (.named .element) e.toDatum
  | .declaration d => .choice rfl rfl d.typed
  | .tag t => .choice rfl rfl t.typed
  | .text t => .choice rfl rfl (.string t.value)

theorem typedItems_elements : (es : List Element) →
    TypedItems Form.describe (.named .element) (elementData es)
  | [] => .nil _
  | e :: es => .cons e.typed (typedItems_elements es)

end

theorem Document.typed (d : Document) : Typed Form.describe (.named .document) d.toDatum :=
  .record rfl (.cons (.list (typedItems_elements d.elements)) .nil)

/-! Data of the forms of types are types. -/

section

variable {d : Datum}

theorem type_inv (h : Typed Form.describe (.named .type) d) :
    ∃ name items n, d = .record [.string name, .list items, .size n]
      ∧ TypedItems Form.describe (.named .typeArgument) items := by
  cases h with
  | shorthand entry contents =>
    cases entry
    cases contents with
    | absent optional => exact nomatch optional
    | cons name rest =>
      cases name
      cases rest with
      | absent optional => exact nomatch optional
      | cons items rest =>
        cases items with
        | list items =>
          cases rest with
          | absent optional => exact nomatch optional
          | cons size rest =>
            cases size
            cases rest
            exact ⟨_, _, _, rfl, items⟩
  | record entry | unit entry | choice entry | first entry | second entry => cases entry

theorem genericFields_inv {fields : List Form.Field} {ds : List Datum}
    (entry : Form.describe .generic = .record fields) (h : TypedFields Form.describe fields ds) :
    ∃ name items kind, ds = [ofOption .string name, .list items, kind]
      ∧ TypedItems Form.describe (.named .type) items
      ∧ Typed Form.describe (.named .boundKind) kind := by
  cases entry
  obtain ⟨name, rest, rfl, hrest⟩ : ∃ name rest, ds = ofOption .string name :: rest
      ∧ TypedFields Form.describe _ rest := by
    cases h with
    | absent _ rest => exact ⟨none, _, rfl, rest⟩
    | cons name rest =>
      cases name
      exact ⟨some _, _, rfl, rest⟩
  cases hrest with
  | absent optional => exact nomatch optional
  | cons items rest =>
    cases items with
    | list items =>
      cases rest with
      | absent optional => exact nomatch optional
      | cons kind rest =>
        cases rest
        exact ⟨_, _, _, rfl, items, kind⟩

theorem generic_inv (h : Typed Form.describe (.named .generic) d) :
    ∃ name items kind, d = .record [ofOption .string name, .list items, kind]
      ∧ TypedItems Form.describe (.named .type) items
      ∧ Typed Form.describe (.named .boundKind) kind := by
  cases h with
  | record entry contents =>
    obtain ⟨name, items, kind, rfl, hrest⟩ := genericFields_inv entry contents
    exact ⟨name, items, kind, rfl, hrest⟩
  | shorthand entry | unit entry | choice entry | first entry | second entry => cases entry

theorem kind_inv (h : Typed Form.describe (.named .boundKind) d) :
    ∃ k : BoundKind, d = k.toDatum := by
  have hnames {name own : String} {content : Option (Shape Form)}
      {variants : List (Json.Variant Form)} (entry : Form.describe .boundKind = .choice variants)
      (found : variants.find? (·.name == name) = some ⟨own, content⟩) :
      (name = "extends" ∨ name = "super") ∧ content = none := by
    cases entry
    have hmem := List.mem_of_find?_eq_some found
    have hname := List.find?_some found
    rw [beq_iff_eq] at hname
    dsimp only at hname
    subst hname
    simpa [← or_and_right] using hmem
  cases h with
  | unit entry found =>
    rcases (hnames entry found).1 with rfl | rfl
    · exact ⟨.upper, rfl⟩
    · exact ⟨.lower, rfl⟩
  | choice entry found => exact nomatch (hnames entry found).2
  | record entry | shorthand entry | first entry | second entry => cases entry

theorem argument_inv (h : Typed Form.describe (.named .typeArgument) d) :
    ∃ ds, (d = .variant "type" (.record ds) ∧ Typed Form.describe (.named .type) (.record ds))
      ∨ d = .variant "wildcard" (.record ds)
        ∧ Typed Form.describe (.named .generic) (.record ds) := by
  cases h with
  | first entry contents =>
    cases entry
    exact ⟨_, .inl ⟨rfl, .shorthand rfl contents⟩⟩
  | second entry contents =>
    cases entry
    exact ⟨_, .inr ⟨rfl, .record rfl contents⟩⟩
  | record entry | shorthand entry | unit entry | choice entry => cases entry

end

-- By the size of the data, since a type holds arguments that hold types again.
mutual

theorem exists_type (d : Datum) (h : Typed Form.describe (.named .type) d) :
    ∃ t : TypeRef, d = t.toDatum := by
  obtain ⟨name, items, n, hd, hitems⟩ := type_inv h
  have : sizeOf items < sizeOf d := by
    subst hd
    simp
    omega
  obtain ⟨as, rfl⟩ := exists_arguments items hitems
  exact ⟨⟨name, as, n⟩, hd⟩
termination_by sizeOf d

theorem exists_generic (d : Datum) (h : Typed Form.describe (.named .generic) d) :
    ∃ g : Generic, d = g.toDatum := by
  obtain ⟨name, items, kind, hd, hitems, hkind⟩ := generic_inv h
  obtain ⟨k, rfl⟩ := kind_inv hkind
  have : sizeOf items < sizeOf d := by
    subst hd
    simp
    omega
  obtain ⟨ts, rfl⟩ := exists_types items hitems
  exact ⟨⟨name, ts, k⟩, hd⟩
termination_by sizeOf d

theorem exists_arguments : (ds : List Datum) →
    TypedItems Form.describe (.named .typeArgument) ds → ∃ as, ds = argumentData as
  | [], _ => ⟨[], rfl⟩
  | d :: ds, .cons head tail => by
    obtain ⟨as, rfl⟩ := exists_arguments ds tail
    obtain ⟨fields, ⟨rfl, hfields⟩ | ⟨rfl, hfields⟩⟩ := argument_inv head
    · obtain ⟨t, ht⟩ := exists_type (.record fields) hfields
      exact ⟨.type t :: as, ht ▸ rfl⟩
    · obtain ⟨g, hg⟩ := exists_generic (.record fields) hfields
      exact ⟨.wildcard g :: as, hg ▸ rfl⟩
termination_by ds => sizeOf ds

theorem exists_types : (ds : List Datum) → TypedItems Form.describe (.named .type) ds →
    ∃ ts, ds = typeData ts
  | [], _ => ⟨[], rfl⟩
  | d :: ds, .cons head tail => by
    obtain ⟨t, rfl⟩ := exists_type d head
    obtain ⟨ts, rfl⟩ := exists_types ds tail
    exact ⟨t :: ts, rfl⟩
termination_by ds => sizeOf ds

end

theorem lacks_name_of_nameless {d : Datum}
    (hnameless : ∀ g : Generic, d = (TypeArgument.wildcard g).toDatum → g.name = none)
    {n : Form} {label first second : String} {short long : List Form.Field} {ds : List Datum}
    (entry : Form.describe n = .either label first second short long)
    (contents : TypedFields Form.describe long ds) (hd : d = .variant second (.record ds)) :
    ∃ f ∈ short, f.presence.default? = none ∧ ∀ q ∈ Json.written long ds, q.1.name ≠ f.name := by
  cases n with
  | typeArgument =>
    cases entry
    obtain ⟨g, hg⟩ := exists_generic (.record ds) (.record rfl contents)
    have hname := hnameless g (hd.trans (congrArg _ hg))
    obtain ⟨name, bounds, kind⟩ := g
    obtain rfl : name = none := hname
    cases hg
    refine ⟨_, List.mem_cons_self, rfl, fun q hq => ?_⟩
    obtain ⟨hzip, hwritten⟩ := List.mem_filter.1 hq
    cases hzip with
    | head => exact nomatch hwritten
    | tail _ hzip =>
      cases hzip with
      | head => exact show "bounds" ≠ "name" by decide
      | tail _ hzip =>
        cases hzip with
        | head => exact show "kind" ≠ "name" by decide
        | tail _ hzip => exact nomatch hzip
  | _ => cases entry

end Scribe
