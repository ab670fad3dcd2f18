import Scribe.Model.Codec
import Scribe.Proofs.Json.Writer
import Scribe.Proofs.Model.Datum
import Scribe.Proofs.Model.Schema

/-!
Values of the types of models are read back from their JSON text.
-/
namespace Scribe

open Json (Datum Tree Typed Restored)

/-! Types with a JSON form. -/

namespace Coded

instance : Coded BoundKind := ⟨.named .boundKind, BoundKind.toDatum, BoundKind.ofDatum?⟩
instance : Coded NamedValue := ⟨.named .namedValue, NamedValue.toDatum, NamedValue.ofDatum?⟩
instance : Coded Number := ⟨.named .number, Number.toDatum, Number.ofDatum?⟩
instance : Coded Binary32 := ⟨.binary32, .binary32, fun
  | .binary32 x => some x
  | _ => none⟩
instance : Coded Binary64 := ⟨.binary64, .binary64, fun
  | .binary64 x => some x
  | _ => none⟩

end Coded

/-- Types whose values are data of their shape, and are got back from it. -/
class LawfulCoded (α : Type) [Coded α] : Prop where
  typed (a : α) : Typed Form.describe (Coded.shape α) (Coded.toDatum a)
  ofDatum?_toDatum (a : α) : Coded.ofDatum? (Coded.toDatum a) = some a

namespace LawfulCoded

instance : LawfulCoded File := ⟨File.typed, File.ofDatum?_toDatum⟩
instance : LawfulCoded ClassDecl := ⟨ClassDecl.typed, ClassDecl.ofDatum?_toDatum⟩
instance : LawfulCoded InterfaceDecl := ⟨InterfaceDecl.typed, InterfaceDecl.ofDatum?_toDatum⟩
instance : LawfulCoded EnumDecl := ⟨EnumDecl.typed, EnumDecl.ofDatum?_toDatum⟩
instance : LawfulCoded AnnotationDecl := ⟨AnnotationDecl.typed, AnnotationDecl.ofDatum?_toDatum⟩
instance : LawfulCoded TypeDecl := ⟨TypeDecl.typed, TypeDecl.ofDatum?_toDatum⟩
instance : LawfulCoded EnumConstant := ⟨EnumConstant.typed, EnumConstant.ofDatum?_toDatum⟩
instance : LawfulCoded Method := ⟨Method.typed, Method.ofDatum?_toDatum⟩
instance : LawfulCoded Constructor := ⟨Constructor.typed, Constructor.ofDatum?_toDatum⟩
instance : LawfulCoded Field := ⟨Field.typed, Field.ofDatum?_toDatum⟩
instance : LawfulCoded Initializer := ⟨Initializer.typed, Initializer.ofDatum?_toDatum⟩
instance : LawfulCoded Import := ⟨Import.typed, Import.ofDatum?_toDatum⟩
instance : LawfulCoded Javadoc := ⟨Javadoc.typed, Javadoc.ofDatum?_toDatum⟩
instance : LawfulCoded JavadocTag := ⟨JavadocTag.typed, JavadocTag.ofDatum?_toDatum⟩
instance : LawfulCoded AnnotationUse := ⟨AnnotationUse.typed, AnnotationUse.ofDatum?_toDatum⟩
instance : LawfulCoded NamedValue := ⟨NamedValue.typed, NamedValue.ofDatum?_toDatum⟩
instance : LawfulCoded Modifier := ⟨Modifier.typed, Modifier.ofKeyword?_keyword⟩
instance : LawfulCoded Modifiers := ⟨Modifiers.typed, Modifiers.ofDatum?_toDatum⟩
instance : LawfulCoded TypeRef := ⟨TypeRef.typed, TypeRef.ofDatum?_toDatum⟩
instance : LawfulCoded TypeArgument := ⟨TypeArgument.typed, TypeArgument.ofDatum?_toDatum⟩
instance : LawfulCoded Generic := ⟨Generic.typed, Generic.ofDatum?_toDatum⟩
instance : LawfulCoded BoundKind := ⟨BoundKind.typed, BoundKind.ofDatum?_toDatum⟩
instance : LawfulCoded Value := ⟨Value.typed, Value.ofDatum?_toDatum⟩
instance : LawfulCoded Number := ⟨Number.typed, Number.ofDatum?_toDatum⟩
instance : LawfulCoded Anonymous := ⟨Anonymous.typed, Anonymous.ofDatum?_toDatum⟩
instance : LawfulCoded Document := ⟨Document.typed, Document.ofDatum?_toDatum⟩
instance : LawfulCoded Element := ⟨Element.typed, Element.ofDatum?_toDatum⟩
instance : LawfulCoded MarkupDeclaration :=
  ⟨MarkupDeclaration.typed, MarkupDeclaration.ofDatum?_toDatum⟩
instance : LawfulCoded Tag := ⟨Tag.typed, Tag.ofDatum?_toDatum⟩
instance : LawfulCoded Attribute := ⟨Attribute.typed, Attribute.ofDatum?_toDatum⟩
instance : LawfulCoded CharacterData := ⟨fun t => .string t.value, fun _ => rfl⟩

end LawfulCoded

/-- The types of the parts of models. -/
inductive ModelType where
  | file | classDecl | interfaceDecl | enumDecl | annotationDecl | typeDecl | enumConstant
  | method | constructor | field | initializer | importDecl | javadoc | javadocTag | annotationUse
  | namedValue | modifier | modifiers | type | typeArgument | generic | boundKind | value | number
  | anonymous | document | element | declaration | tag | tagAttribute | text
deriving DecidableEq

namespace ModelType

def Carrier : ModelType → Type
  | .file => File
  | .classDecl => ClassDecl
  | .interfaceDecl => InterfaceDecl
  | .enumDecl => EnumDecl
  | .annotationDecl => AnnotationDecl
  | .typeDecl => TypeDecl
  | .enumConstant => EnumConstant
  | .method => Method
  | .constructor => Constructor
  | .field => Field
  | .initializer => Initializer
  | .importDecl => Import
  | .javadoc => Javadoc
  | .javadocTag => JavadocTag
  | .annotationUse => AnnotationUse
  | .namedValue => NamedValue
  | .modifier => Modifier
  | .modifiers => Modifiers
  | .type => TypeRef
  | .typeArgument => TypeArgument
  | .generic => Generic
  | .boundKind => BoundKind
  | .value => Value
  | .number => Number
  | .anonymous => Anonymous
  | .document => Document
  | .element => Element
  | .declaration => MarkupDeclaration
  | .tag => Tag
  | .tagAttribute => Attribute
  | .text => CharacterData

instance instCoded : (k : ModelType) → Coded k.Carrier
  | .file => inferInstanceAs (Coded File)
  | .classDecl => inferInstanceAs (Coded ClassDecl)
  | .interfaceDecl => inferInstanceAs (Coded InterfaceDecl)
  | .enumDecl => inferInstanceAs (Coded EnumDecl)
  | .annotationDecl => inferInstanceAs (Coded AnnotationDecl)
  | .typeDecl => inferInstanceAs (Coded TypeDecl)
  | .enumConstant => inferInstanceAs (Coded EnumConstant)
  | .method => inferInstanceAs (Coded Method)
  | .constructor => inferInstanceAs (Coded Constructor)
  | .field => inferInstanceAs (Coded Field)
  | .initializer => inferInstanceAs (Coded Initializer)
  | .importDecl => inferInstanceAs (Coded Import)
  | .javadoc => inferInstanceAs (Coded Javadoc)
  | .javadocTag => inferInstanceAs (Coded JavadocTag)
  | .annotationUse => inferInstanceAs (Coded AnnotationUse)
  | .namedValue => inferInstanceAs (Coded NamedValue)
  | .modifier => inferInstanceAs (Coded Modifier)
  | .modifiers => inferInstanceAs (Coded Modifiers)
  | .type => inferInstanceAs (Coded TypeRef)
  | .typeArgument => inferInstanceAs (Coded TypeArgument)
  | .generic => inferInstanceAs (Coded Generic)
  | .boundKind => inferInstanceAs (Coded BoundKind)
  | .value => inferInstanceAs (Coded Value)
  | .number => inferInstanceAs (Coded Number)
  | .anonymous => inferInstanceAs (Coded Anonymous)
  | .document => inferInstanceAs (Coded Document)
  | .element => inferInstanceAs (Coded Element)
  | .declaration => inferInstanceAs (Coded MarkupDeclaration)
  | .tag => inferInstanceAs (Coded Tag)
  | .tagAttribute => inferInstanceAs (Coded Attribute)
  | .text => inferInstanceAs (Coded CharacterData)

theorem lawfulCoded : (k : ModelType) → LawfulCoded k.Carrier
  | .file => inferInstanceAs (LawfulCoded File)
  | .classDecl => inferInstanceAs (LawfulCoded ClassDecl)
  | .interfaceDecl => inferInstanceAs (LawfulCoded InterfaceDecl)
  | .enumDecl => inferInstanceAs (LawfulCoded EnumDecl)
  | .annotationDecl => inferInstanceAs (LawfulCoded AnnotationDecl)
  | .typeDecl => inferInstanceAs (LawfulCoded TypeDecl)
  | .enumConstant => inferInstanceAs (LawfulCoded EnumConstant)
  | .method => inferInstanceAs (LawfulCoded Method)
  | .constructor => inferInstanceAs (LawfulCoded Constructor)
  | .field => inferInstanceAs (LawfulCoded Field)
  | .initializer => inferInstanceAs (LawfulCoded Initializer)
  | .importDecl => inferInstanceAs (LawfulCoded Import)
  | .javadoc => inferInstanceAs (LawfulCoded Javadoc)
  | .javadocTag => inferInstanceAs (LawfulCoded JavadocTag)
  | .annotationUse => inferInstanceAs (LawfulCoded AnnotationUse)
  | .namedValue => inferInstanceAs (LawfulCoded NamedValue)
  | .modifier => inferInstanceAs (LawfulCoded Modifier)
  | .modifiers => inferInstanceAs (LawfulCoded Modifiers)
  | .type => inferInstanceAs (LawfulCoded TypeRef)
  | .typeArgument => inferInstanceAs (LawfulCoded TypeArgument)
  | .generic => inferInstanceAs (LawfulCoded Generic)
  | .boundKind => inferInstanceAs (LawfulCoded BoundKind)
  | .value => inferInstanceAs (LawfulCoded Value)
  | .number => inferInstanceAs (LawfulCoded Number)
  | .anonymous => inferInstanceAs (LawfulCoded Anonymous)
  | .document => inferInstanceAs (LawfulCoded Document)
  | .element => inferInstanceAs (LawfulCoded Element)
  | .declaration => inferInstanceAs (LawfulCoded MarkupDeclaration)
  | .tag => inferInstanceAs (LawfulCoded Tag)
  | .tagAttribute => inferInstanceAs (LawfulCoded Attribute)
  | .text => inferInstanceAs (LawfulCoded CharacterData)

end ModelType

/-! Equality. -/

theorem Binary.beq_self {l : Layout} {x : Binary l} (h : x.isFinite) : (x == x) = true := by
  have hnan : x.isNaN = false := by
    unfold isFinite at h
    rw [decide_eq_true_eq] at h
    exact decide_eq_false (Nat.le_of_lt h |>.not_gt)
  change (!x.isNaN && x.rank == x.rank && (x.rank == 0 || x.negative == x.negative)) = true
  rw [hnan]
  simp

namespace Json.Datum

def isFinite : Datum → Bool
  | .binary32 x => x.isFinite
  | .binary64 x => x.isFinite
  | _ => true

mutual

theorem beq_self : (d : Datum) → (∀ p ∈ d.parts, p.isFinite) → d.beq d = true
  | .string _, _ | .bool _, _ | .size _, _ | .integer _, _ | .absent, _ => by simp [beq]
  | .binary32 x, h | .binary64 x, h => Binary.beq_self (h _ (mem_parts_self _))
  | .list ds, h | .record ds, h => by
    rw [beq]
    exact beqAll_self ds fun p hp => h p (List.mem_cons_of_mem _ hp)
  | .variant name d, h => by
    rw [beq, beq_self d fun p hp => h p (List.mem_cons_of_mem _ hp), Bool.and_true, beq_iff_eq]

theorem beqAll_self : (ds : List Datum) → (∀ p ∈ partsAll ds, p.isFinite) → beqAll ds ds = true
  | [], _ => rfl
  | d :: ds, h => by
    rw [beqAll, beq_self d fun p hp => h p (List.mem_append_left _ hp),
      beqAll_self ds fun p hp => h p (List.mem_append_right _ hp)]
    rfl

end

end Json.Datum

/-! Reading what was written. -/

section

variable {α : Type} [Coded α]

theorem decode_eq_ok_iff {text : String} {a : α} : Json.decode text = .ok a ↔
    (Tree.ofText text).2 = true ∧ ∃ d,
      Json.read Form.describe (Coded.shape α) (Tree.ofText text).1 = .ok d
        ∧ Coded.ofDatum? d = some a := by
  unfold Json.decode Json.decodeTree
  generalize Tree.ofText text = parsed
  obtain ⟨t, ended⟩ := parsed
  dsimp only
  cases hread : Json.read Form.describe (Coded.shape α) t with
  | error e => simp [bind, Except.bind]
  | ok d =>
    cases hdatum : (Coded.ofDatum? d : Option α) <;> cases ended <;>
      simp [bind, Except.bind, hdatum]

theorem restored_of_mem {p : Datum}
    (hnameless : ∀ g : Generic, p = (TypeArgument.wildcard g).toDatum → g.name = none)
    (hfinite : p.isFinite)
    (hfloat : ∀ x : Binary32, p = .binary32 x → x.isFinite → Json.decode (Json.encode x) = .ok x)
    (hdouble : ∀ x : Binary64, p = .binary64 x → x.isFinite → Json.decode (Json.encode x) = .ok x) :
    Restored Form.describe p where
  binary32 x hp := by
    subst hp
    obtain ⟨hended, d, hread, hdatum⟩ := decode_eq_ok_iff.1 (hfloat x rfl hfinite)
    obtain rfl : d = .binary32 x := by
      cases d with
      | binary32 y => exact congrArg _ (Option.some.inj hdatum)
      | _ => exact nomatch hdatum
    exact ⟨hfinite, hended, hread⟩
  binary64 x hp := by
    subst hp
    obtain ⟨hended, d, hread, hdatum⟩ := decode_eq_ok_iff.1 (hdouble x rfl hfinite)
    obtain rfl : d = .binary64 x := by
      cases d with
      | binary64 y => exact congrArg _ (Option.some.inj hdatum)
      | _ => exact nomatch hdatum
    exact ⟨hfinite, hended, hread⟩
  second _ _ _ _ _ _ _ entry contents hp := lacks_name_of_nameless hnameless entry contents hp

end

/-- A value whose wildcards have no names and whose numbers are finite is read back from its text,
if it is nested no deeper than a reader follows and the text of each of its numbers is read back. -/
theorem decode_encode (k : ModelType) (m : k.Carrier)
    (hnameless : ∀ g : Generic,
      (TypeArgument.wildcard g).toDatum ∈ (Coded.toDatum m).parts → g.name = none)
    (hfinite : ∀ p ∈ (Coded.toDatum m).parts, p.isFinite)
    (hfloat : ∀ x : Binary32, .binary32 x ∈ (Coded.toDatum m).parts → x.isFinite →
      Json.decode (Json.encode x) = .ok x)
    (hdouble : ∀ x : Binary64, .binary64 x ∈ (Coded.toDatum m).parts → x.isFinite →
      Json.decode (Json.encode x) = .ok x)
    (hnesting : (Json.encodeTree m).height ≤ Json.maxOpen) :
    Json.decode (Json.encode m) = .ok m ∧ Coded.equal m m := by
  have hlawful := k.lawfulCoded
  have hparts : ∀ p ∈ (Coded.toDatum m).parts, Restored Form.describe p := by
    intro p hp
    apply restored_of_mem
    · exact fun g hg => hnameless g (hg ▸ hp)
    · exact hfinite p hp
    · exact fun x hx => hfloat x (hx ▸ hp)
    · exact fun x hx => hdouble x (hx ▸ hp)
  obtain ⟨hended, hread⟩ :=
    Json.read_ofText_write Form.coherent_describe (LawfulCoded.typed m) hparts hnesting
  refine ⟨decode_eq_ok_iff.2 ⟨hended, _, hread, LawfulCoded.ofDatum?_toDatum m⟩, ?_⟩
  exact Datum.beq_self _ hfinite

def listOfTens : Value :=
  -- Written with an exponent, so that it is read back by one product.
  let ten : Decimal := { digits := 1, exponent := 16 }
  .invocation (some { name := "List", arguments := [.wildcard { bounds := [.ofName "Number"] }] })
    "of" [.number (.float (.ofDecimal _ ten)), .number (.double (.ofDecimal _ ten)), .null]

def isNamedWildcard : Json.Datum → Bool
  | .variant "wildcard" (.record (.string _ :: _)) => true
  | _ => false

theorem decode_encode_listOfTens :
    Json.decode (Json.encode listOfTens) = .ok listOfTens ∧ Coded.equal listOfTens listOfTens := by
  have hwildcards : (Coded.toDatum listOfTens).parts.all (!isNamedWildcard ·) := by
    decide +kernel
  have hfloats : (Coded.toDatum listOfTens).parts.filterMap Coded.ofDatum? =
      [Binary.ofDecimal .binary32 { digits := 1, exponent := 16 }] := by
    decide +kernel
  have hdoubles : (Coded.toDatum listOfTens).parts.filterMap Coded.ofDatum? =
      [Binary.ofDecimal .binary64 { digits := 1, exponent := 16 }] := by
    decide +kernel
  apply decode_encode .value listOfTens
  · intro g hg
    obtain ⟨name, bounds, kind⟩ := g
    cases name with
    | none => rfl
    | some name =>
      have hnamed : false = true := List.all_eq_true.1 hwildcards _ hg
      exact absurd hnamed (by decide)
  · decide +kernel
  · intro x hx _
    have hmem : x ∈ (Coded.toDatum listOfTens).parts.filterMap Coded.ofDatum? :=
      List.mem_filterMap.2 ⟨_, hx, rfl⟩
    rw [hfloats, List.mem_singleton] at hmem
    subst hmem
    decide +kernel
  · intro x hx _
    have hmem : x ∈ (Coded.toDatum listOfTens).parts.filterMap Coded.ofDatum? :=
      List.mem_filterMap.2 ⟨_, hx, rfl⟩
    rw [hdoubles, List.mem_singleton] at hmem
    subst hmem
    decide +kernel
  · decide +kernel

end Scribe
