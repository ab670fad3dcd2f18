import Scribe.Proofs.Json.Inversion

/-!
What a datum is like that is read back from its own text. What was read need only agree with what
was written, in a relation that decides numbers and the forms of a choice.
-/
namespace Scribe.Json

section

variable {N : Type} {schema : Schema N} {s item : Shape N} {d : Datum} {opened : Nat}
  {fields short long : List (Field N)} {ds ds' : List Datum} {n : N}
  {name label first second : String} {f : Field N}

/-! What reading a datum back asks of it. -/

/-- What is asked of the parts of a datum: a number is read from its own text as an equal number,
and the first form of a choice cannot be read where the second was written. -/
def Reread (schema : Schema N) : Datum → Prop
  | .binary32 x => ∃ y,
    read schema .binary32 ((writeBinary style32 x).image 0) = .ok (.binary32 y) ∧ (y == x) = true
  | .binary64 x => ∃ y,
    read schema .binary64 ((writeBinary style64 x).image 0) = .ok (.binary64 y) ∧ (y == x) = true
  | .variant name (.record ds) => ∀ n label first short long,
    schema n = .either label first name short long → TypedFields schema long ds →
      ∃ opened e, readMembers schema short []
        (Tree.imageMembers opened (writeFields schema long ds)) .closed = .error e
  | _ => True

/-- A schema that can be read back from, where the name of a second form is no other variant's. -/
structure Unambiguous (schema : Schema N) : Prop where
  coherent (n : N) : (schema n).coherent
  second {n n' : N} {label first second : String} {short long : List (Field N)} {content : Datum} :
    schema n = .either label first second short long →
      Typed schema (.named n') (.variant second content) → n' = n

/-- A relation between data that are read and data that were written, which decides numbers and
the forms of a choice, and lists but for those of bare variants. -/
structure Agreement (schema : Schema N) (R : Datum → Datum → Prop) : Prop where
  absent {d : Datum} : R .absent d → d = .absent
  binary32 {d : Datum} {x : Binary32} : R d (.binary32 x) → ∃ y, d = .binary32 y ∧ (y == x) = true
  binary64 {d : Datum} {x : Binary64} : R d (.binary64 x) → ∃ y, d = .binary64 y ∧ (y == x) = true
  list {ds' ds : List Datum} : R (.list ds') (.list ds) →
    (∀ d ∈ ds, ∃ name, d = .variant name .absent) ∨ List.Forall₂ R ds' ds
  record {ds' ds : List Datum} : R (.record ds') (.record ds) → List.Forall₂ R ds' ds
  content {name' name : String} {d' d : Datum} :
    R (.variant name' d') (.variant name d) → d = .absent ∨ R d' d
  form {n : N} {label first second name' name : String} {short long : List (Field N)}
    {d' d : Datum} : schema n = .either label first second short long →
      R (.variant name' d') (.variant name d) → (name' = first ↔ name = first)

theorem image_writeBinary {l : Layout} (style : NumeralStyle) (x : Binary l) (opened : Nat) :
    (writeBinary style x).image opened = (writeBinary style x).image 0 := by
  unfold writeBinary
  split <;> rfl

theorem height_writeBinary {l : Layout} (style : NumeralStyle) (x : Binary l) :
    (writeBinary style x).height = 0 := by
  unfold writeBinary
  split <;> rfl

theorem reread_of_unwritten (h : f.isWritten d = false) : ∀ p ∈ d.parts, Reread schema p := by
  have hscalar {d : Datum} (hparts : d.parts = [d]) (hd : Reread schema d) :
      ∀ p ∈ d.parts, Reread schema p := by
    rw [hparts]
    exact List.forall_mem_singleton.2 hd
  unfold Field.isWritten at h
  split at h
  · exact hscalar rfl trivial
  · rw [Bool.not_eq_false'] at h
    unfold Datum.isBlank at h
    split at h
    · exact hscalar rfl trivial
    · exact hscalar rfl trivial
    · cases h
  · cases h

theorem not_typed_absent : ¬ Typed schema s .absent := nofun

theorem reread_of_bare {ds : List Datum} (hbare : ∀ d ∈ ds, ∃ name, d = .variant name .absent) :
    TypedItems schema item ds → Tree.heightItems (writeItems schema item ds) = 0
      ∧ ∀ p ∈ Datum.partsAll ds, Reread schema p
  | .nil _ => ⟨rfl, nofun⟩
  | .cons head tail => by
    rw [List.forall_mem_cons] at hbare
    obtain ⟨⟨name, rfl⟩, hbare⟩ := hbare
    obtain ⟨hheight, hparts⟩ := reread_of_bare hbare tail
    have hhead : (write schema item (.variant name .absent)).height = 0 := by
      cases head with
      | unit entry found => simp only [write.eq_def, entry, found, Tree.height]
      | choice entry found content => exact absurd content not_typed_absent
    rw [writeItems, Tree.heightItems, hhead, hheight]
    refine ⟨rfl, ?_⟩
    rintro p (_ | ⟨_, _ | ⟨_, hp⟩⟩)
    · trivial
    · trivial
    · exact hparts p hp

/-- What reading a variant asks is asked where the variant belongs. -/
theorem Unambiguous.reread_variant (hschema : Unambiguous schema)
    (htyped : Typed schema (.named n) (.variant name d))
    (h : ∀ label first short long, schema n = .either label first name short long →
      ∀ ds, d = .record ds → ∃ opened e, readMembers schema short []
        (Tree.imageMembers opened (writeFields schema long ds)) .closed = .error e) :
    Reread schema (.variant name d) := by
  cases d with
  | record ds =>
    intro n' label first short long entry _
    obtain rfl := hschema.second entry htyped
    exact h label first short long entry ds rfl
  | _ => trivial

theorem write_record {ds : List Datum} (entry : schema n = .record fields) :
    write schema (.named n) (.record ds) = .object (writeFields schema fields ds) .closed := by
  simp only [write.eq_def, entry]

theorem write_shorthand {ds : List Datum} (entry : schema n = .shorthand label fields) :
    write schema (.named n) (.record ds) = .object (writeFields schema fields ds) .closed := by
  simp only [write.eq_def, entry]

theorem write_first {ds : List Datum} (entry : schema n = .either label first second short long) :
    write schema (.named n) (.variant first (.record ds)) =
      .object (writeFields schema short ds) .closed := by
  simp only [write.eq_def, entry, ↓reduceIte]

theorem write_second {ds : List Datum} (entry : schema n = .either label first second short long)
    (hne : first ≠ second) : write schema (.named n) (.variant second (.record ds)) =
      .object (writeFields schema long ds) .closed := by
  simp only [write.eq_def, entry, if_neg hne.symm]

theorem write_choice {variants : List (Variant N)} {own : String}
    (entry : schema n = .choice variants)
    (found : variants.find? (·.name == name) = some ⟨own, some s⟩) :
    write schema (.named n) (.variant name d) = .object [⟨.ok name, write schema s d⟩] .closed := by
  simp only [write.eq_def _ _ (.variant _ _), entry, found, Tree.record, List.map_cons,
    List.map_nil]

theorem read_of_written {R : Datum → Datum → Prop} (hagree : Agreement schema R)
    (hcoherent : coherentFields fields) (htyped : TypedFields schema fields ds)
    (h : readMembers schema fields []
      (Tree.imageMembers opened (writeFields schema fields ds)) .closed = .ok ds')
    (hR : List.Forall₂ R ds' ds) {p : Field N × Datum} (hp : p ∈ written fields ds) :
    ∃ d', read schema p.1.shape ((write schema p.1.shape p.2).image opened) = .ok d'
      ∧ R d' p.2 := by
  unfold coherentFields at hcoherent
  rw [Bool.and_eq_true, decide_eq_true_eq] at hcoherent
  obtain ⟨hzip, hwritten⟩ := List.mem_filter.1 hp
  have hmem : ⟨.ok p.1.name, (write schema p.1.shape p.2).image opened⟩ ∈
      Tree.imageMembers opened (writeFields schema fields ds) := by
    rw [writeFields_eq, Tree.imageMembers_eq, List.map_map]
    exact List.mem_map_of_mem hp
  obtain ⟨d', hread, hd'⟩ := mem_zip_of_member hcoherent.1 h (List.of_mem_zip hzip).1 hmem
  have hrel : R d' p.2 := rel_of_mem_zip hcoherent.1 hR hd' hzip
  rcases hread with hread | rfl
  · exact ⟨d', hread, hrel⟩
  · -- Null is read for a field that has no value, and such a field is not written.
    have habsent := hagree.absent hrel
    rcases htyped.of_mem_zip hzip with ⟨hoptional, -⟩ | htyped
    · unfold Field.isWritten at hwritten
      rw [hoptional, habsent] at hwritten
      cases hwritten
    · exact absurd (habsent ▸ htyped) not_typed_absent

section

variable {R : Datum → Datum → Prop}

/-! What follows for data that are read back from an image of what is written for them. -/

/-- Trees of some height that are open inside others are not too deep, and data are read back. -/
def Regained (schema : Schema N) (opened height : Nat) (parts : List Datum) : Prop :=
  opened + height ≤ maxOpen ∧ ∀ p ∈ parts, Reread schema p

theorem Regained.append {height height' : Nat} {parts parts' : List Datum}
    (h : Regained schema opened height parts) (h' : Regained schema opened height' parts') :
    Regained schema opened (max height height') (parts ++ parts') := by
  obtain ⟨hheight, hparts⟩ := h
  obtain ⟨hheight', hparts'⟩ := h'
  exact ⟨by omega, List.forall_mem_append.2 ⟨hparts, hparts'⟩⟩

def Regains (schema : Schema N) (R : Datum → Datum → Prop) (s : Shape N) (d : Datum) : Prop :=
  ∀ ⦃opened d'⦄, opened ≤ maxOpen → read schema s ((write schema s d).image opened) = .ok d' →
    R d' d → Regained schema opened (write schema s d).height d.parts

def RegainsItems (schema : Schema N) (R : Datum → Datum → Prop) (s : Shape N) (ds : List Datum) :
    Prop :=
  ∀ ⦃opened ds'⦄, opened ≤ maxOpen →
    readItems schema s (Tree.imageItems opened (writeItems schema s ds)) = .ok ds' →
      List.Forall₂ R ds' ds →
        Regained schema opened (Tree.heightItems (writeItems schema s ds)) (Datum.partsAll ds)

def RegainsFields (schema : Schema N) (R : Datum → Datum → Prop) (fields : List (Field N))
    (ds : List Datum) : Prop :=
  ∀ ⦃opened⦄, opened ≤ maxOpen →
    (∀ p ∈ written fields ds, ∃ d',
      read schema p.1.shape ((write schema p.1.shape p.2).image opened) = .ok d' ∧ R d' p.2) →
        Regained schema opened (Tree.heightMembers (writeFields schema fields ds))
          (Datum.partsAll ds)

theorem regains_leaf (hparts : d.parts = [d]) (hheight : (write schema s d).height = 0)
    (h : ∀ {opened d'}, read schema s ((write schema s d).image opened) = .ok d' → R d' d →
      Reread schema d) : Regains schema R s d := by
  intro opened d' hopened hread hR
  rw [hparts, hheight]
  exact ⟨hopened, List.forall_mem_singleton.2 (h hread hR)⟩

theorem regains_list (hagree : Agreement schema R) (items : TypedItems schema item ds)
    (hitems : RegainsItems schema R item ds) : Regains schema R (.list item) (.list ds) := by
  intro opened d' _ h hR
  rw [write, Tree.list, Tree.image] at h
  obtain ⟨hopened, h⟩ := lt_of_read_nest h
  obtain ⟨ds', hread, rfl⟩ := items_of_read_list h
  rw [write, Tree.list, Tree.height, Datum.parts]
  unfold Regained
  rw [List.forall_mem_cons]
  rcases hagree.list hR with hbare | hR
  · obtain ⟨hheight, hparts⟩ := reread_of_bare hbare items
    exact ⟨by omega, trivial, hparts⟩
  · obtain ⟨hheight, hparts⟩ := hitems hopened hread hR
    exact ⟨by omega, trivial, hparts⟩

theorem regained_object (hagree : Agreement schema R) (hcoherent : coherentFields fields)
    (contents : TypedFields schema fields ds) (hfields : RegainsFields schema R fields ds)
    (hopened : opened < maxOpen)
    (hmembers : readMembers schema fields []
      (Tree.imageMembers (opened + 1) (writeFields schema fields ds)) .closed = .ok ds')
    (hR : List.Forall₂ R ds' ds) :
    Regained schema opened (Tree.object (writeFields schema fields ds) .closed).height
      (Datum.record ds).parts := by
  obtain ⟨hheight, hparts⟩ := hfields hopened fun p hp =>
    read_of_written hagree hcoherent contents hmembers hR hp
  rw [Tree.height, Datum.parts]
  exact ⟨by omega, List.forall_mem_cons.2 ⟨trivial, hparts⟩⟩

theorem regains_record (hschema : Unambiguous schema) (hagree : Agreement schema R)
    (entry : schema n = .record fields) (contents : TypedFields schema fields ds)
    (hfields : RegainsFields schema R fields ds) : Regains schema R (.named n) (.record ds) := by
  intro opened d' _ h hR
  have hcoherent := hschema.coherent n
  rw [entry] at hcoherent
  rw [write_record entry, Tree.image] at h
  obtain ⟨hopened, h⟩ := lt_of_read_nest h
  obtain ⟨ds', hmembers, rfl⟩ := fields_of_read_record entry h
  rw [write_record entry]
  exact regained_object hagree hcoherent contents hfields hopened hmembers (hagree.record hR)

theorem regains_shorthand (hschema : Unambiguous schema) (hagree : Agreement schema R)
    (entry : schema n = .shorthand label fields) (contents : TypedFields schema fields ds)
    (hfields : RegainsFields schema R fields ds) : Regains schema R (.named n) (.record ds) := by
  intro opened d' _ h hR
  have hcoherent := hschema.coherent n
  rw [entry] at hcoherent
  rw [write_shorthand entry, Tree.image] at h
  obtain ⟨hopened, h⟩ := lt_of_read_nest h
  obtain ⟨ds', hmembers, rfl⟩ := fields_of_read_shorthand entry h
  rw [write_shorthand entry]
  exact regained_object hagree hcoherent contents hfields hopened hmembers (hagree.record hR)

theorem Regained.variant {height : Nat} (h : Regained schema opened height d.parts)
    (hvariant : Reread schema (.variant name d)) :
    Regained schema opened height (Datum.variant name d).parts :=
  ⟨h.1, List.forall_mem_cons.2 ⟨hvariant, h.2⟩⟩

theorem regains_unit {variants : List (Variant N)} {own : String}
    (entry : schema n = .choice variants)
    (found : variants.find? (·.name == name) = some ⟨own, none⟩) :
    Regains schema R (.named n) (.variant name .absent) := by
  intro opened d' hopened _ _
  have hheight : (write schema (.named n) (.variant name .absent)).height = 0 := by
    simp only [write.eq_def, entry, found, Tree.height]
  rw [hheight]
  exact Regained.variant ⟨hopened, List.forall_mem_singleton.2 trivial⟩ trivial

theorem regains_choice (hschema : Unambiguous schema) (hagree : Agreement schema R)
    {variants : List (Variant N)} {own : String} (entry : schema n = .choice variants)
    (found : variants.find? (·.name == name) = some ⟨own, some s⟩) (content : Typed schema s d)
    (hcontent : Regains schema R s d) : Regains schema R (.named n) (.variant name d) := by
  intro opened d' _ h hR
  rw [write_choice entry found, Tree.image, Tree.imageMembers] at h
  obtain ⟨hopened, h⟩ := lt_of_read_nest h
  obtain ⟨d', hread, rfl⟩ := content_of_read_choice entry found h
  have hR := (hagree.content hR).resolve_left fun h => not_typed_absent (h ▸ content)
  obtain ⟨hheight, hparts⟩ := hcontent hopened hread hR
  rw [write_choice entry found, Tree.height, Tree.heightMembers, Tree.heightMembers]
  refine Regained.variant ⟨by omega, hparts⟩ ?_
  apply hschema.reread_variant (.choice entry found content)
  intro label first short long heither
  cases entry.symm.trans heither

theorem regains_first (hschema : Unambiguous schema) (hagree : Agreement schema R)
    (entry : schema n = .either label first second short long)
    (contents : TypedFields schema short ds) (hfields : RegainsFields schema R short ds) :
    Regains schema R (.named n) (.variant first (.record ds)) := by
  intro opened d' _ h hR
  have hcoherent := hschema.coherent n
  rw [entry, Description.coherent, Bool.and_eq_true, Bool.and_eq_true, bne_iff_ne] at hcoherent
  rw [write_first entry, Tree.image] at h
  obtain ⟨hopened, h⟩ := lt_of_read_nest h
  obtain ⟨ds', hmembers, rfl⟩ | ⟨-, ds', -, rfl⟩ := fields_of_read_either entry h
  · have hRs := hagree.record ((hagree.content hR).resolve_left nofun)
    rw [write_first entry]
    refine (regained_object hagree hcoherent.1.2 contents hfields hopened hmembers hRs).variant ?_
    apply hschema.reread_variant (.first entry contents)
    intro label first' short' long' heither
    cases entry.symm.trans heither
    exact absurd rfl hcoherent.1.1
  · exact absurd ((hagree.form entry hR).2 rfl).symm hcoherent.1.1

theorem regains_second (hschema : Unambiguous schema) (hagree : Agreement schema R)
    (entry : schema n = .either label first second short long)
    (contents : TypedFields schema long ds) (hfields : RegainsFields schema R long ds) :
    Regains schema R (.named n) (.variant second (.record ds)) := by
  intro opened d' _ h hR
  have hcoherent := hschema.coherent n
  rw [entry, Description.coherent, Bool.and_eq_true, Bool.and_eq_true, bne_iff_ne] at hcoherent
  rw [write_second entry hcoherent.1.1, Tree.image] at h
  obtain ⟨hopened, h⟩ := lt_of_read_nest h
  obtain ⟨ds', -, rfl⟩ | ⟨⟨e, hshort⟩, ds', hmembers, rfl⟩ := fields_of_read_either entry h
  · exact absurd ((hagree.form entry hR).1 rfl).symm hcoherent.1.1
  · have hRs := hagree.record ((hagree.content hR).resolve_left nofun)
    rw [write_second entry hcoherent.1.1]
    refine (regained_object hagree hcoherent.2 contents hfields hopened hmembers hRs).variant ?_
    apply hschema.reread_variant (.second entry contents)
    intro label' first' short' long' heither ds₀ heq
    cases entry.symm.trans heither
    cases heq
    exact ⟨opened + 1, e, hshort⟩

theorem regainsItems_cons (hhead : Regains schema R s d) (htail : RegainsItems schema R s ds) :
    RegainsItems schema R s (d :: ds) := by
  intro opened ds' hopened h hR
  rw [writeItems, Tree.imageItems, readItems] at h
  obtain ⟨d', hread, h⟩ := exists_of_bind_eq_ok h
  obtain ⟨ds', hreads, h⟩ := exists_of_bind_eq_ok h
  obtain rfl := Except.ok.inj h
  cases hR with
  | cons hR hRs =>
    rw [writeItems, Tree.heightItems, Datum.partsAll]
    exact (hhead hopened hread hR).append (htail hopened hreads hRs)

theorem regainsFields_cons_of_unwritten (hunwritten : f.isWritten d = false)
    (htail : RegainsFields schema R fields ds) :
    RegainsFields schema R (f :: fields) (d :: ds) := by
  intro opened hopened h
  rw [written, List.zip_cons_cons, List.filter_cons_of_neg (by simp [hunwritten])] at h
  obtain ⟨hheight, hparts⟩ := htail hopened h
  rw [writeFields_of_unwritten hunwritten, Datum.partsAll]
  exact ⟨hheight, List.forall_mem_append.2 ⟨reread_of_unwritten hunwritten, hparts⟩⟩

theorem regainsFields_cons (hhead : Regains schema R f.shape d)
    (htail : RegainsFields schema R fields ds) :
    RegainsFields schema R (f :: fields) (d :: ds) := by
  cases hwritten : f.isWritten d with
  | true =>
    intro opened hopened h
    rw [written, List.zip_cons_cons, List.filter_cons_of_pos (by simp [hwritten]),
      List.forall_mem_cons] at h
    obtain ⟨⟨d', hread, hR⟩, h⟩ := h
    rw [writeFields_of_written hwritten, Tree.heightMembers, Datum.partsAll]
    exact (hhead hopened hread hR).append (htail hopened h)
  | false => exact regainsFields_cons_of_unwritten hwritten htail

-- By the derivation of the shape. A container that is open inside too many others is read as a flaw,
-- so each level that is read bounds the depth of the one below it.
mutual

theorem regains (hschema : Unambiguous schema) (hagree : Agreement schema R) {s : Shape N}
    {d : Datum} : Typed schema s d → Regains schema R s d
  | .string _ | .bool _ | .size _ | .integer _ => regains_leaf rfl rfl fun _ _ => trivial
  | .binary32 x => regains_leaf rfl (height_writeBinary _ x) fun h hR => by
    obtain ⟨y, rfl, hy⟩ := hagree.binary32 hR
    exact ⟨y, image_writeBinary _ x _ ▸ h, hy⟩
  | .binary64 x => regains_leaf rfl (height_writeBinary _ x) fun h hR => by
    obtain ⟨y, rfl, hy⟩ := hagree.binary64 hR
    exact ⟨y, image_writeBinary _ x _ ▸ h, hy⟩
  | .list items => regains_list hagree items (regainsItems hschema hagree items)
  | .record entry contents =>
    regains_record hschema hagree entry contents (regainsFields hschema hagree contents)
  | .shorthand entry contents =>
    regains_shorthand hschema hagree entry contents (regainsFields hschema hagree contents)
  | .unit entry found => regains_unit entry found
  | .choice entry found content =>
    regains_choice hschema hagree entry found content (regains hschema hagree content)
  | .first entry contents =>
    regains_first hschema hagree entry contents (regainsFields hschema hagree contents)
  | .second entry contents =>
    regains_second hschema hagree entry contents (regainsFields hschema hagree contents)

theorem regainsItems (hschema : Unambiguous schema) (hagree : Agreement schema R) {s : Shape N}
    {ds : List Datum} : TypedItems schema s ds → RegainsItems schema R s ds
  | .nil _ => fun _ _ hopened _ _ => ⟨hopened, nofun⟩
  | .cons head tail =>
    regainsItems_cons (regains hschema hagree head) (regainsItems hschema hagree tail)

theorem regainsFields (hschema : Unambiguous schema) (hagree : Agreement schema R)
    {fields : List (Field N)} {ds : List Datum} :
    TypedFields schema fields ds → RegainsFields schema R fields ds
  | .nil => fun _ hopened _ => ⟨hopened, nofun⟩
  | .absent optional tail =>
    regainsFields_cons_of_unwritten (by unfold Field.isWritten; rw [optional])
      (regainsFields hschema hagree tail)
  | .cons head tail =>
    regainsFields_cons (regains hschema hagree head) (regainsFields hschema hagree tail)

end

end

end

end Scribe.Json
