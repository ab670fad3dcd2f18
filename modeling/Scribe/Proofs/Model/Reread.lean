import Scribe.Proofs.Json.Reread
import Scribe.Proofs.Model.RoundTrip
import Scribe.Proofs.Model.Source

/-!
Which values are read back from the text that is written for them: those without named wildcards
whose numbers are each read back from their own text and which are not nested too deep.
-/
namespace Scribe

open Json (Datum Tree Typed Reread Agreement Unambiguous)

/-! The schema of models. -/

theorem Form.find?_wildcard {n : Form} {variants : List (Json.Variant Form)}
    (entry : Form.describe n = .choice variants) :
    variants.find? (·.name == "wildcard") = none := by
  cases n <;> cases entry <;> rfl

theorem Form.unambiguous_describe : Unambiguous Form.describe where
  coherent := Form.coherent_describe
  second {n n' _ _ _ _ _ _} entry typed := by
    cases n with
    | typeArgument =>
      cases entry
      cases typed with
      | unit entry found | choice entry found =>
        cases (Form.find?_wildcard entry).symm.trans found
      | first entry | second entry =>
        cases n' with
        | typeArgument => rfl
        | _ => cases entry
    | _ => cases entry

/-! What is read agrees with what was written. -/

def Agrees (d' d : Datum) : Prop := ∃ e, Source e d' ∧ e.beq d = true

namespace Agrees

variable {d' d e : Datum} {ds' ds es : List Datum}

theorem items (hsources : List.Forall₂ Source es ds') (hbeq : Datum.beqAll es ds = true) :
    List.Forall₂ Agrees ds' ds := by
  induction hsources generalizing ds with
  | nil =>
    cases ds with
    | nil => exact .nil
    | cons d ds => cases hbeq
  | cons head tail ih =>
    cases ds with
    | nil => cases hbeq
    | cons d ds =>
      rw [Datum.beqAll, Bool.and_eq_true] at hbeq
      exact .cons ⟨_, head, hbeq.1⟩ (ih hbeq.2)

theorem sources_same (ds : List Datum) : List.Forall₂ Source ds ds :=
  List.forall₂_same.2 fun d _ => .same d

theorem absent_of_beq (h : Datum.beq .absent d = true) : d = .absent := by
  cases d with
  | absent => rfl
  | _ => cases h

theorem variant_of_beq {name : String} (h : e.beq (.variant name d) = true) :
    ∃ c, e = .variant name c ∧ c.beq d = true := by
  cases e with
  | variant m c =>
    rw [Datum.beq, Bool.and_eq_true, beq_iff_eq] at h
    exact ⟨c, congrArg (Datum.variant · c) h.1, h.2⟩
  | _ => cases h

theorem bare_of_beqAll (hbare : ∀ e ∈ es, ∃ name, e = .variant name .absent)
    (hbeq : Datum.beqAll es ds = true) : ∀ d ∈ ds, ∃ name, d = .variant name .absent := by
  induction es generalizing ds with
  | nil =>
    cases ds with
    | nil => exact nofun
    | cons d ds => cases hbeq
  | cons e es ih =>
    cases ds with
    | nil => exact nofun
    | cons d ds =>
      rw [Datum.beqAll, Bool.and_eq_true] at hbeq
      rw [List.forall_mem_cons] at hbare ⊢
      obtain ⟨⟨name, rfl⟩, hbare⟩ := hbare
      refine ⟨?_, ih hbare hbeq.2⟩
      cases d with
      | variant name' content =>
        obtain ⟨c, heq, hcontent⟩ := variant_of_beq hbeq.1
        cases heq
        exact ⟨name, congrArg _ (absent_of_beq hcontent)⟩
      | _ => cases hbeq.1

end Agrees

theorem Form.agreement_describe : Agreement Form.describe Agrees where
  absent := by
    rintro d ⟨e, hsource, hbeq⟩
    cases hsource
    exact Agrees.absent_of_beq hbeq
  binary32 := by
    rintro d x ⟨e, hsource, hbeq⟩
    cases e with
    | binary32 y =>
      cases hsource
      exact ⟨y, rfl, hbeq⟩
    | _ => cases hbeq
  binary64 := by
    rintro d x ⟨e, hsource, hbeq⟩
    cases e with
    | binary64 y =>
      cases hsource
      exact ⟨y, rfl, hbeq⟩
    | _ => cases hbeq
  list := by
    rintro ds' ds ⟨e, hsource, hbeq⟩
    cases hsource with
    | same =>
      rw [Datum.beq] at hbeq
      exact .inr (Agrees.items (Agrees.sources_same ds') hbeq)
    | list items =>
      rw [Datum.beq] at hbeq
      exact .inr (Agrees.items items hbeq)
    | bare hbare =>
      rw [Datum.beq] at hbeq
      exact .inl (Agrees.bare_of_beqAll hbare hbeq)
  record := by
    rintro ds' ds ⟨e, hsource, hbeq⟩
    cases hsource with
    | same =>
      rw [Datum.beq] at hbeq
      exact Agrees.items (Agrees.sources_same ds') hbeq
    | record fields =>
      rw [Datum.beq] at hbeq
      exact Agrees.items fields hbeq
  content := by
    rintro name' name d' d ⟨e, hsource, hbeq⟩
    obtain ⟨c, rfl, hcontent⟩ := Agrees.variant_of_beq hbeq
    cases hsource with
    | same => exact .inr ⟨_, .same _, hcontent⟩
    | variant _ content | wildcard _ content => exact .inr ⟨c, content, hcontent⟩
    | unit => exact .inl (Agrees.absent_of_beq hcontent)
  form := by
    rintro n label first second name' name short long d' d entry ⟨e, hsource, hbeq⟩
    obtain ⟨c, rfl, -⟩ := Agrees.variant_of_beq hbeq
    obtain rfl : first = "type" := by
      cases n <;> cases entry
      rfl
    cases hsource with
    | same | variant | unit => exact Iff.rfl
    | wildcard hother => exact iff_of_false hother (by decide)

theorem Modifier.source (d : Datum) {m : Modifier}
    (h : (Coded.ofDatum? d : Option Modifier) = some m) : Source (Coded.toDatum m) d := by
  cases d with
  | variant name content =>
    have hname := List.find?_some h
    rw [beq_iff_eq] at hname
    subst hname
    exact .unit _ _
  | _ => cases h

theorem ModelType.source (d : Datum) : (k : ModelType) → {m : k.Carrier} →
    Coded.ofDatum? d = some m → Source (Coded.toDatum m) d
  | .file, _, h => File.source d h
  | .classDecl, _, h => ClassDecl.source d h
  | .interfaceDecl, _, h => InterfaceDecl.source d h
  | .enumDecl, _, h => EnumDecl.source d h
  | .annotationDecl, _, h => AnnotationDecl.source d h
  | .typeDecl, _, h => TypeDecl.source d h
  | .enumConstant, _, h => EnumConstant.source d h
  | .method, _, h => Method.source d h
  | .constructor, _, h => Constructor.source d h
  | .field, _, h => Field.source d h
  | .initializer, _, h => Initializer.source d h
  | .importDecl, _, h => Import.source d h
  | .javadoc, _, h => Javadoc.source d h
  | .javadocTag, _, h => JavadocTag.source d h
  | .annotationUse, _, h => AnnotationUse.source d h
  | .namedValue, _, h => NamedValue.source d h
  | .modifier, _, h => Modifier.source d h
  | .modifiers, _, h => Modifiers.source d h
  | .type, _, h => TypeRef.source d h
  | .typeArgument, _, h => TypeArgument.source d h
  | .generic, _, h => Generic.source d h
  | .boundKind, _, h => BoundKind.source d h
  | .value, _, h => Value.source d h
  | .number, _, h => Number.source d h
  | .anonymous, _, h => Anonymous.source d h
  | .document, _, h => Document.source d h
  | .element, _, h => Element.source d h
  | .declaration, _, h => MarkupDeclaration.source d h
  | .tag, _, h => Tag.source d h
  | .tagAttribute, _, h => Attribute.source d h
  | .text, _, h => CharacterData.source d h

/-! Parts that are read back. -/

theorem Binary.eq_or_zero_of_beq {l : Layout} {x y : Binary l} (h : (y == x) = true) :
    y = x ∨ x.rank = 0 := by
  obtain ⟨negative, rank⟩ := x
  obtain ⟨negative', rank'⟩ := y
  replace h : (!Binary.isNaN ⟨negative', rank'⟩ && rank' == rank
    && (rank' == 0 || negative' == negative)) = true := h
  simp only [Bool.and_eq_true, Bool.or_eq_true, beq_iff_eq] at h
  obtain ⟨⟨-, rfl⟩, hzero | rfl⟩ := h
  · exact .inr hzero
  · exact .inl rfl

section

variable {α : Type} [Coded α]

theorem decode_encode_eq_ok_iff {a b : α} : Json.decode (Json.encode a) = .ok b ↔
    ∃ d, Json.read Form.describe (Coded.shape α) ((Json.encodeTree a).image 0) = .ok d
      ∧ Coded.ofDatum? d = some b := by
  have htext : Tree.ofText (Json.encode a) = ((Json.encodeTree a).image 0, true) :=
    Json.ofText_toText_image (Json.whole_write Form.describe (Coded.shape α) (Coded.toDatum a))
  rw [decode_eq_ok_iff, htext]
  exact and_iff_right rfl

variable {l : Layout} [Coded (Binary l)] {x : Binary l}

theorem decode_of_reread (hzero : ∀ negative,
      Json.decode (Json.encode (⟨negative, 0⟩ : Binary l)) = .ok (⟨negative, 0⟩ : Binary l))
    (hlawful : ∀ y : Binary l, Coded.ofDatum? (Coded.toDatum y) = some y)
    (h : ∃ y : Binary l, Json.read Form.describe (Coded.shape (Binary l))
      ((Json.encodeTree x).image 0) = .ok (Coded.toDatum y) ∧ (y == x) = true) :
    Json.decode (Json.encode x) = .ok x := by
  obtain ⟨y, hread, hy⟩ := h
  rcases Binary.eq_or_zero_of_beq hy with rfl | hrank
  · exact decode_encode_eq_ok_iff.2 ⟨_, hread, hlawful y⟩
  · obtain ⟨negative, rank⟩ := x
    obtain rfl : rank = 0 := hrank
    exact hzero negative

theorem isFinite_of_decode (style : NumeralStyle)
    (hwrite : Json.encodeTree x = Json.writeBinary style x)
    (h : Json.decode (Json.encode x) = .ok x) : x.isFinite := by
  obtain ⟨d, hread, -⟩ := decode_encode_eq_ok_iff.1 h
  by_contra hfinite
  have hnull : Json.encodeTree x = .null := hwrite.trans (if_neg hfinite)
  rw [hnull] at hread
  exact Json.read_null hread

end

/-- What has a name and, beyond it, what only a wildcard has, is read as a type. -/
theorem readMembers_named {label first : String} {short long : List Form.Field} {name : String}
    {bounds kind : Datum} {opened : Nat}
    (entry : Form.describe .typeArgument = .either label first "wildcard" short long) :
    ∃ ds, Json.readMembers Form.describe short [] (Tree.imageMembers opened
      (Json.writeFields Form.describe long [.string name, bounds, kind])) .closed = .ok ds := by
  cases entry
  change ∃ ds, Json.readMembers Form.describe _ [] (Tree.imageMembers opened
    (Json.writeFields Form.describe (_ :: _) [.string name, bounds, kind])) .closed = .ok ds
  rw [Json.writeFields_of_written rfl, Tree.imageMembers, Json.readMembers_cons rfl rfl rfl,
    Json.readMembers_skip]
  · exact ⟨_, rfl⟩
  · intro m hm
    rw [Json.writeFields_eq, Tree.imageMembers_eq, List.map_map] at hm
    obtain ⟨⟨f, d⟩, hq, rfl⟩ := List.mem_map.1 hm
    refine ⟨f.name, rfl, ?_, Tree.skipBreak?_image _ (Json.whole_write _ _ _)⟩
    cases (List.of_mem_zip (List.mem_filter.1 hq).1).1 with
    | head => rfl
    | tail _ hfield =>
      cases hfield with
      | head => rfl
      | tail _ hfield => cases hfield

theorem nameless_of_reread {g : Generic}
    (h : Reread Form.describe (TypeArgument.wildcard g).toDatum) : g.name = none := by
  obtain ⟨name, bounds, kind⟩ := g
  cases name with
  | none => rfl
  | some name =>
    cases (TypeArgument.wildcard ⟨some name, bounds, kind⟩).typed with
    | second entry contents =>
      obtain ⟨opened, e, herror⟩ := h _ _ _ _ _ entry contents
      obtain ⟨ds, hds⟩ := readMembers_named entry
      cases herror.symm.trans hds
    | choice entry => cases entry
    | first entry => exact absurd (Json.Description.either.inj entry).2.1 (by decide)

/-- A value is read back from its text just when it has no named wildcard, each of its numbers is
read back from its own text, and it is nested no deeper than a reader follows. -/
theorem decode_encode_iff (k : ModelType) (m : k.Carrier) :
    (∃ m', Json.decode (Json.encode m) = .ok m' ∧ Coded.equal m' m) ↔
      (∀ g : Generic, (TypeArgument.wildcard g).toDatum ∈ (Coded.toDatum m).parts → g.name = none)
      ∧ (∀ x : Binary32, .binary32 x ∈ (Coded.toDatum m).parts →
          Json.decode (Json.encode x) = .ok x)
      ∧ (∀ x : Binary64, .binary64 x ∈ (Coded.toDatum m).parts →
          Json.decode (Json.encode x) = .ok x)
      ∧ (Json.encodeTree m).height ≤ Json.maxOpen := by
  have hlawful := k.lawfulCoded
  constructor
  · rintro ⟨m', hdecode, hequal⟩
    obtain ⟨d, hread, hdatum⟩ := decode_encode_eq_ok_iff.1 hdecode
    obtain ⟨hheight, hparts⟩ := Json.regains Form.unambiguous_describe Form.agreement_describe
      (LawfulCoded.typed m) (Nat.zero_le _) hread ⟨_, k.source d hdatum, hequal⟩
    rw [Nat.zero_add] at hheight
    refine ⟨fun g hg => nameless_of_reread (hparts _ hg),
      fun x hx => decode_of_reread ?_ (fun _ => rfl) (hparts _ hx),
      fun x hx => decode_of_reread ?_ (fun _ => rfl) (hparts _ hx), hheight⟩
    all_goals
      intro negative
      cases negative <;> decide +kernel
  · rintro ⟨hnameless, hfloat, hdouble, hheight⟩
    have hfinite : ∀ p ∈ (Coded.toDatum m).parts, p.isFinite := by
      intro p hp
      cases p with
      | binary32 x => exact isFinite_of_decode Json.style32 rfl (hfloat x hp)
      | binary64 x => exact isFinite_of_decode Json.style64 rfl (hdouble x hp)
      | _ => rfl
    have hparts : ∀ p ∈ (Coded.toDatum m).parts, Json.Restored Form.describe p := by
      intro p hp
      apply restored_of_mem
      · exact fun g hg => hnameless g (hg ▸ hp)
      · exact hfinite p hp
      · exact fun x hx _ => hfloat x (hx ▸ hp)
      · exact fun x hx _ => hdouble x (hx ▸ hp)
    obtain ⟨hended, hread⟩ :=
      Json.read_ofText_write Form.coherent_describe (LawfulCoded.typed m) hparts hheight
    exact ⟨m, decode_eq_ok_iff.2 ⟨hended, _, hread, LawfulCoded.ofDatum?_toDatum m⟩,
      Datum.beq_self _ hfinite⟩

/-- A type argument that falls back to a wildcard with a name comes back as a type, a double may
come back as its neighbour, and a float beyond the range of floats does not come back at all. -/
theorem decode_encode_drift :
    (do
      let a : TypeArgument ← Json.decode "\x7b\"name\":\"T\",\"generics\":5\x7d"
      return Coded.equal (← Json.decode (Json.encode a)) a) = .ok false
    ∧ (do
      let v : Value ← Json.decode "\x7b\"number\":\x7b\"double\":1e-25\x7d\x7d"
      return Coded.equal (← Json.decode (Json.encode v)) v) = .ok false
    ∧ (Json.decode "\x7b\"number\":\x7b\"float\":1e39\x7d\x7d").map (Json.encode : Value → String) =
        .ok "\x7b\"number\":\x7b\"float\":null\x7d\x7d"
    ∧ (Json.decode "\x7b\"number\":\x7b\"float\":null\x7d\x7d").map (Json.encode : Value → String) =
        .error .invalidType := by
  refine ⟨?_, ?_, ?_, ?_⟩
  · decide +kernel
  · decide +kernel
  · decide +kernel
  · decide +kernel

end Scribe
