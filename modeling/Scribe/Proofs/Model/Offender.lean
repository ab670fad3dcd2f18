import Scribe.Proofs.Model.Validity
import Scribe.Proofs.Name

/-!
What validation reports of types and of markup. There it passes over nothing and looks at each item
before what is inside it: it goes through all items in preorder, and its error names the first one
whose own name is not what it must be.
-/
namespace Scribe

namespace Validity

variable {check : α → Validity}

theorem forM_flatMap {f : β → List α} {bs : List β} :
    forM (bs.flatMap f) check = forM bs fun b => forM (f b) check := by
  induction bs with
  | nil => rfl
  | cons b bs ih => rw [List.flatMap_cons, List.forM_append, ih, List.forM_cons]

theorem forM_congr {check' : α → Validity} {as : List α} (h : ∀ a ∈ as, check a = check' a) :
    forM as check = forM as check' := by
  induction as with
  | nil => rfl
  | cons a as ih =>
    obtain ⟨ha, has⟩ := List.forall_mem_cons.1 h
    rw [List.forM_cons, List.forM_cons, ha, ih has]

theorem forM_map_of {check' : β → Validity} {f : α → β} (h : ∀ a, check' (f a) = check a)
    (as : List α) : forM (as.map f) check' = forM as check := by
  rw [List.forM_map]
  exact forM_congr fun a _ => h a

/-- Checks that are made one after another fail as the first one does that fails. -/
theorem forM_eq_error_iff {as : List α} {e : ModelError} : forM as check = .error e ↔
    ∃ before a after, as = before ++ a :: after ∧ (∀ b ∈ before, check b = .ok ())
      ∧ check a = .error e := by
  induction as with
  | nil =>
    refine iff_of_false nofun ?_
    rintro ⟨before, a, after, h, -⟩
    cases before <;> cases h
  | cons a as ih =>
    rw [List.forM_cons]
    cases ha : check a with
    | error e' =>
      constructor
      · rintro ⟨⟩
        exact ⟨[], a, as, rfl, nofun, ha⟩
      · rintro ⟨before, a', after, h, hbefore, ha'⟩
        cases before with
        | nil =>
          cases h
          exact ha.symm.trans ha'
        | cons b before =>
          cases h
          exact nomatch ha.symm.trans (hbefore a List.mem_cons_self)
    | ok u =>
      refine Iff.trans ih ?_
      constructor
      · rintro ⟨before, a', after, rfl, hbefore, ha'⟩
        exact ⟨a :: before, a', after, rfl, List.forall_mem_cons.2 ⟨ha, hbefore⟩, ha'⟩
      · rintro ⟨before, a', after, h, hbefore, ha'⟩
        cases before with
        | nil =>
          cases h
          exact nomatch ha.symm.trans ha'
        | cons b before =>
          cases h
          exact ⟨before, a', after, rfl, (List.forall_mem_cons.1 hbefore).2, ha'⟩

end Validity

namespace Item

/-! The order of an item and of all that is inside it. -/

/-- An item, then one after another the items directly inside it, each with all that is inside
it. -/
def preorder (i : Item) : List Item :=
  i :: i.inside.attach.flatMap fun m => preorder m.1
termination_by sizeOf i
decreasing_by exact sizeOf_lt_of_holds m.2

theorem preorder_eq (i : Item) : i.preorder = i :: i.inside.flatMap preorder := by
  rw [preorder, List.flatMap_subtype (g := preorder) fun _ _ => rfl, List.unattach_attach]

theorem mem_preorder_iff {i m : Item} : m ∈ i.preorder ↔ i.Within m := by
  constructor
  · induction i using preorder.induct with
    | case1 i ih =>
      rw [preorder_eq, List.mem_cons, List.mem_flatMap]
      rintro (rfl | ⟨j, hj, hm⟩)
      · exact .refl
      · exact .head hj (ih ⟨j, hj⟩ hm)
  · intro h
    induction h using Relation.ReflTransGen.head_induction_on with
    | refl =>
      rw [preorder_eq]
      exact List.mem_cons_self
    | head hj _ ih =>
      rw [preorder_eq]
      exact List.mem_cons_of_mem _ (List.mem_flatMap.2 ⟨_, hj, ih⟩)

/-! Offenders. -/

def markupName? : Item → Option String
  | tag x => some x.name
  | tagAttribute x => some x.name
  | _ => none

/-- The name that an item has is not what it must be: types have dotted names, wildcards none, and
tags and attributes have markup names. -/
inductive Offends : Item → ModelError → Prop
  | type {x : TypeRef} (h : ¬ Name.Dotted x.name) : Offends (type x) (.invalidTypeName x.name)
  | wildcard {x : Generic} {name : String} (h : x.name = some name) :
    Offends (generic x) (.invalidTypeName name)
  | nameless {m : Item} (h : m.markupName? = some "") : Offends m (.missingName m.kind)
  | markup {m : Item} {name : String} (h : m.markupName? = some name) (hne : name ≠ "")
    (hname : ¬ Name.isMarkup name) : Offends m (.invalidIdentifier m.kind name)

/-- What validation looks at in an item before it goes on to what is inside. -/
def check : Item → Validity
  | type x => if Name.isQualified x.name then .ok () else .error (.invalidTypeName x.name)
  | generic x => x.name.forM fun name => .error (.invalidTypeName name)
  | tag x => checkMarkupName .tag x.name
  | tagAttribute x => checkMarkupName .tagAttribute x.name
  | _ => .ok ()

end Item

theorem checkMarkupName_eq_error_iff {kind : Kind} {name : String} {e : ModelError} :
    checkMarkupName kind name = .error e ↔ name = "" ∧ e = .missingName kind
      ∨ name ≠ "" ∧ ¬ Name.isMarkup name ∧ e = .invalidIdentifier kind name := by
  unfold checkMarkupName
  split
  · next hempty => simp [hempty, @eq_comm _ e]
  · next hne =>
    split
    · next hname => simp [hne, hname]
    · next hname => simp [hne, hname, @eq_comm _ e]

namespace Item

theorem check_eq_error_iff {m : Item} {e : ModelError} : m.check = .error e ↔ m.Offends e := by
  constructor
  · intro h
    cases m with
    | type x =>
      rw [check, ite_eq_iff] at h
      obtain ⟨-, h⟩ | ⟨hname, h⟩ := h
      · exact nomatch h
      · cases h
        exact .type fun hdotted => hname (Name.isQualified_iff.2 hdotted)
    | generic x =>
      obtain ⟨_ | name, bounds, kind⟩ := x
      · exact nomatch h
      · cases h
        exact .wildcard rfl
    | tag x | tagAttribute x =>
      obtain ⟨hempty, rfl⟩ | ⟨hne, hname, rfl⟩ := checkMarkupName_eq_error_iff.1 h
      · exact .nameless (congrArg some hempty)
      · exact .markup rfl hne hname
    | _ => exact nomatch h
  · rintro (hname | hname | hname | ⟨hname, hne, hmarkup⟩)
    · rw [check, if_neg fun hqualified => hname (Name.isQualified_iff.1 hqualified)]
    · rw [check, hname]
      rfl
    · cases m with
      | tag x | tagAttribute x =>
        exact checkMarkupName_eq_error_iff.2 (.inl ⟨Option.some.inj hname, rfl⟩)
      | _ => exact nomatch hname
    · cases m with
      | tag x | tagAttribute x =>
        cases hname
        exact checkMarkupName_eq_error_iff.2 (.inr ⟨hne, hmarkup, rfl⟩)
      | _ => exact nomatch hname

theorem check_eq_ok_iff {m : Item} : m.check = .ok () ↔ ∀ e, ¬ m.Offends e := by
  constructor
  · intro h e he
    exact nomatch h.symm.trans (check_eq_error_iff.2 he)
  · intro h
    cases hcheck : m.check with
    | ok u => rfl
    | error e => exact absurd (check_eq_error_iff.1 hcheck) (h e)

end Item

/-! Validation goes through types and markup in preorder. -/

namespace Kind

def isTypeOrMarkup : Kind → Bool
  | type | generic => true
  | k => k.isMarkup

theorem isTypeOrMarkup_of_isMarkup {k : Kind} (h : k.isMarkup) : k.isTypeOrMarkup := by
  cases k with
  | type | generic => rfl
  | _ => exact h

end Kind

namespace Item

theorem isTypeOrMarkup_of_holds {i m : Item} (hi : i.kind.isTypeOrMarkup) (h : i.Holds m) :
    m.kind.isTypeOrMarkup := by
  cases i with
  | type x =>
    obtain ⟨a, -, rfl⟩ := List.mem_map.1 ((holds_iff.1 h).resolve_left List.not_mem_nil)
    cases a <;> rfl
  | generic x =>
    obtain ⟨t, -, rfl⟩ := List.mem_map.1 ((holds_iff.1 h).resolve_left List.not_mem_nil)
    rfl
  | document | tag | declaration | tagAttribute | text =>
    exact Kind.isTypeOrMarkup_of_isMarkup ((isMarkup_of_holds h).trans hi)
  | value v => cases v <;> exact absurd hi Bool.false_ne_true
  | _ => exact absurd hi Bool.false_ne_true

theorem validate_eq_bind {i : Item} (h : i.kind.isTypeOrMarkup) :
    i.validate = (i.check >>= fun _ => forM i.inside Item.validate) := by
  cases i with
  | type x =>
    obtain ⟨name, arguments, dimensions⟩ := x
    have hinside : (type ⟨name, arguments, dimensions⟩).inside = arguments.map ofArgument := rfl
    rw [validate, TypeRef.validate, check, validateArguments_eq_forM, hinside,
      Validity.forM_map_of validate_ofArgument]
    split <;> rfl
  | generic x =>
    obtain ⟨_ | name, bounds, kind⟩ := x
    · have hinside : (generic ⟨none, bounds, kind⟩).inside = bounds.map type := rfl
      rw [validate, Generic.validateWildcard, validateTypes_eq_forM, hinside,
        Validity.forM_map_of fun t => rfl]
      rfl
    · rfl
  | document x =>
    have hinside : (document x).inside = x.elements.map ofElement := rfl
    rw [validate, Document.validate, validateElements_eq_forM, hinside,
      Validity.forM_map_of validate_ofElement]
    rfl
  | tag x =>
    obtain ⟨name, attributes, children⟩ := x
    have hinside : (tag ⟨name, attributes, children⟩).inside
      = attributes.map .tagAttribute ++ children.map ofElement := rfl
    rw [validate, Tag.validate, hinside, List.forM_append, List.forM_map,
      validateElements_eq_forM, Validity.forM_map_of validate_ofElement]
    rfl
  | tagAttribute x =>
    rw [validate, check]
    cases checkMarkupName .tagAttribute x.name <;> rfl
  | declaration x | text x => rfl
  | value v => cases v <;> exact absurd h Bool.false_ne_true
  | _ => exact absurd h Bool.false_ne_true

/-- Validation looks at the items one after another in preorder. -/
theorem validate_eq_forM {i : Item} (h : i.kind.isTypeOrMarkup) :
    i.validate = forM i.preorder check := by
  induction i using preorder.induct with
  | case1 i ih =>
    have hinside : ∀ m ∈ i.inside, m.validate = forM m.preorder check := fun m hm =>
      ih ⟨m, hm⟩ (isTypeOrMarkup_of_holds h hm)
    rw [validate_eq_bind h, preorder_eq, List.forM_cons, Validity.forM_flatMap,
      Validity.forM_congr hinside]

/-! The verdict. -/

/-- `m` offends with `e`, and nothing that comes before it in the preorder of `i` offends. -/
def FirstOffender (i m : Item) (e : ModelError) : Prop :=
  ∃ before after, i.preorder = before ++ m :: after ∧ (∀ b ∈ before, ∀ e, ¬ b.Offends e)
    ∧ m.Offends e

theorem validate_eq_error_iff {i : Item} (h : i.kind.isTypeOrMarkup) {e : ModelError} :
    i.validate = .error e ↔ ∃ m, i.FirstOffender m e := by
  rw [validate_eq_forM h, Validity.forM_eq_error_iff]
  simp only [check_eq_ok_iff, check_eq_error_iff]
  constructor
  · rintro ⟨before, m, after, hpreorder, hbefore, hm⟩
    exact ⟨m, before, after, hpreorder, hbefore, hm⟩
  · rintro ⟨m, before, after, hpreorder, hbefore, hm⟩
    exact ⟨before, m, after, hpreorder, hbefore, hm⟩

theorem validate_ne_ok_iff {i : Item} (h : i.kind.isTypeOrMarkup) :
    i.validate ≠ .ok () ↔ ∃ m e, i.Within m ∧ m.Offends e := by
  rw [validate_eq_forM h, ne_eq, Validity.forM_list_eq_ok_iff]
  simp only [mem_preorder_iff, check_eq_ok_iff]
  push Not
  exact ⟨fun ⟨m, hm, e, he⟩ => ⟨m, e, hm, he⟩, fun ⟨m, e, hm, he⟩ => ⟨m, hm, e, he⟩⟩

/-- A name is missing just when an empty markup name is what offends. -/
theorem Offends.missing_iff {m : Item} {e : ModelError} (h : m.Offends e) :
    (∃ kind, e = .missingName kind) ↔ m.markupName? = some "" := by
  cases h with
  | type => exact iff_of_false (fun ⟨_, h⟩ => nomatch h) nofun
  | wildcard => exact iff_of_false (fun ⟨_, h⟩ => nomatch h) nofun
  | nameless h => exact iff_of_true ⟨m.kind, rfl⟩ h
  | markup h hne =>
    refine iff_of_false (fun ⟨_, h⟩ => nomatch h) fun hempty => hne ?_
    exact Option.some.inj (h.symm.trans hempty)

theorem isMarkup_of_markupName? {m : Item} {name : String} (h : m.markupName? = some name) :
    m.kind.isMarkup := by
  cases m with
  | tag | tagAttribute => rfl
  | _ => exact nomatch h

theorem isMarkup_of_within {i m : Item} (h : i.Within m) : m.kind.isMarkup = i.kind.isMarkup := by
  induction h with
  | refl => rfl
  | tail _ hholds ih => exact (isMarkup_of_holds hholds).trans ih

theorem offends_within_type {t : TypeRef} : (∃ m e, (type t).Within m ∧ m.Offends e) ↔
    (∃ u, (type t).Within (type u) ∧ ¬ Name.Dotted u.name)
      ∨ ∃ g name, (type t).Within (generic g) ∧ g.name = some name := by
  constructor
  · rintro ⟨m, e, hm, he⟩
    have hmarkup : m.kind.isMarkup = false := isMarkup_of_within hm
    cases he with
    | @type x h => exact .inl ⟨x, hm, h⟩
    | @wildcard x name h => exact .inr ⟨x, name, hm, h⟩
    | nameless h | markup h => exact nomatch hmarkup.symm.trans (isMarkup_of_markupName? h)
  · rintro (⟨u, hu, h⟩ | ⟨g, name, hg, h⟩)
    · exact ⟨type u, _, hu, .type h⟩
    · exact ⟨generic g, _, hg, .wildcard h⟩

theorem offends_within_document {d : Document} :
    (∃ m e, (document d).Within m ∧ m.Offends e) ↔ ∃ m name, (document d).Within m
      ∧ m.markupName? = some name ∧ (name = "" ∨ ¬ Name.isMarkup name) := by
  constructor
  · rintro ⟨m, e, hm, he⟩
    have hmarkup : m.kind.isMarkup = true := isMarkup_of_within hm
    cases he with
    | type | wildcard => exact nomatch hmarkup
    | nameless h => exact ⟨m, "", hm, h, .inl rfl⟩
    | @markup _ name h _ hname => exact ⟨m, name, hm, h, .inr hname⟩
  · rintro ⟨m, name, hm, hname, hbad⟩
    by_cases hempty : name = ""
    · exact ⟨m, _, hm, .nameless (hempty ▸ hname)⟩
    · exact ⟨m, _, hm, .markup hname hempty (hbad.resolve_left hempty)⟩

/-- The verdict on an item names its first offender, and says that a name is missing just when that
is an empty markup name. -/
structure NamesFirst (i : Item) (verdict : Validity) : Prop where
  error (e : ModelError) : verdict = .error e ↔ ∃ m, i.FirstOffender m e
  missing (m : Item) (e : ModelError) :
    i.FirstOffender m e → ((∃ kind, e = .missingName kind) ↔ m.markupName? = some "")

theorem namesFirst_validate {i : Item} (h : i.kind.isTypeOrMarkup) : i.NamesFirst i.validate where
  error _ := validate_eq_error_iff h
  missing := by
    rintro m e ⟨before, after, -, -, hm⟩
    exact hm.missing_iff

end Item

/-- Validation refuses a type just when a type at any depth in it has no dotted name or a wildcard
has a name, and a document just when a tag or an attribute at any depth has no markup name; it then
names the first of them in preorder. -/
theorem validate_exact :
    (∀ t : TypeRef,
      (t.validate ≠ .ok () ↔
        (∃ u, (Item.type t).Within (.type u) ∧ ¬ Name.Dotted u.name)
          ∨ ∃ g name, (Item.type t).Within (.generic g) ∧ g.name = some name)
      ∧ (Item.type t).NamesFirst t.validate)
    ∧ ∀ d : Document,
      (d.validate ≠ .ok () ↔ ∃ m name, (Item.document d).Within m
        ∧ m.markupName? = some name ∧ (name = "" ∨ ¬ Name.isMarkup name))
      ∧ (Item.document d).NamesFirst d.validate := by
  refine ⟨fun t => ⟨?_, Item.namesFirst_validate rfl⟩, fun d => ⟨?_, Item.namesFirst_validate rfl⟩⟩
  · rw [← Item.offends_within_type]
    exact Item.validate_ne_ok_iff (i := .type t) rfl
  · rw [← Item.offends_within_document]
    exact Item.validate_ne_ok_iff (i := .document d) rfl

example :
    let bound : TypeRef := { name := "2d" }
    let first : TypeRef := { name := "Box", arguments := [.wildcard { bounds := [bound] }] }
    let t : TypeRef := { name := "Map", arguments := [.type first, .wildcard (.ofName "K")] }
    t.validate = .error (.invalidTypeName "2d") := by
  rfl

end Scribe
