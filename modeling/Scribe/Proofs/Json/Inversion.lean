import Scribe.Proofs.Json.Writer

/-!
What it takes to read a tree, told one level at a time: where a list, record or choice is read, so
are its items, its fields and its content. The trees that are written have no flaws, and neither
have their images for a reader that passes over them.
-/
namespace Scribe.Json

/-! Trees without flaws. -/

theorem Close.closed_of_break? {close : Close} (h : close.break? = none) : close = .closed := by
  cases close with
  | closed => rfl
  | broken why | noKey why => cases h

namespace Tree

mutual

theorem whole_of_keepBreak? : (t : Tree) → t.keepBreak? = none → t.Whole
  | .null, _ | .bool _, _ | .number _, _ | .string _, _ => trivial
  | .array items close, h => by
    rw [keepBreak?, Option.or_eq_none_iff] at h
    exact ⟨Close.closed_of_break? h.2, wholeItems_of_keepItems? items h.1⟩
  | .object members close, h => by
    rw [keepBreak?, Option.or_eq_none_iff] at h
    exact ⟨Close.closed_of_break? h.2, wholeMembers_of_keepMembers? members h.1⟩
  | .flawed _, h => nomatch h

theorem wholeItems_of_keepItems? : (ts : List Tree) → keepItems? ts = none → WholeItems ts
  | [], _ => trivial
  | t :: ts, h => by
    rw [keepItems?, Option.or_eq_none_iff] at h
    exact ⟨whole_of_keepBreak? t h.1, wholeItems_of_keepItems? ts h.2⟩

theorem wholeMembers_of_keepMembers? : (ms : List Member) → keepMembers? ms = none →
    WholeMembers ms
  | [], _ => trivial
  | ⟨.ok key, value⟩ :: ms, h => by
    rw [keepMembers?, Option.none_or, Option.or_eq_none_iff] at h
    exact ⟨⟨key, rfl⟩, whole_of_keepBreak? value h.1, wholeMembers_of_keepMembers? ms h.2⟩
  | ⟨.error _, _⟩ :: _, h => by
    rw [keepMembers?, Option.some_or] at h
    cases h

end

theorem imageMembers_eq (opened : Nat) (members : List Member) :
    imageMembers opened members = members.map fun m => ⟨m.key, m.value.image opened⟩ := by
  induction members with
  | nil => rfl
  | cons m ms ih =>
    cases m
    rw [imageMembers, ih, List.map_cons]

theorem skipBreak?_nest {lead : Lead} {opened : Nat} {t : Tree} (h : t.skipBreak? = none) :
    (nest lead opened t).skipBreak? = none := by
  unfold nest
  split
  · exact h
  · exact h

mutual

theorem skipBreak?_image {opened : Nat} : (t : Tree) → t.Whole →
    (t.image opened).skipBreak? = none
  | .null, _ | .bool _, _ | .string _, _ => rfl
  | .number n, _ => n.skipBreak?_scanned
  | .array items close, ⟨hclose, hitems⟩ => by
    rw [image, hclose]
    apply skipBreak?_nest
    rw [skipBreak?, skipItems?_image items hitems]
    rfl
  | .object members close, ⟨hclose, hmembers⟩ => by
    rw [image, hclose]
    apply skipBreak?_nest
    rw [skipBreak?, skipMembers?_image members hmembers]
    rfl

theorem skipItems?_image {opened : Nat} : (ts : List Tree) → WholeItems ts →
    skipItems? (imageItems opened ts) = none
  | [], _ => rfl
  | t :: ts, ⟨h, hs⟩ => by
    rw [imageItems, skipItems?, skipBreak?_image t h, skipItems?_image ts hs]
    rfl

theorem skipMembers?_image {opened : Nat} : (ms : List Member) → WholeMembers ms →
    skipMembers? (imageMembers opened ms) = none
  | [], _ => rfl
  | ⟨_, value⟩ :: ms, ⟨⟨_, rfl⟩, h, hs⟩ => by
    rw [imageMembers, skipMembers?, skipBreak?_image value h, skipMembers?_image ms hs]
    rfl

end

end Tree

section

variable {N : Type} {schema : Schema N} {s item : Shape N} {d d' : Datum} {opened : Nat}
  {fields short long : List (Field N)} {ds ds' : List Datum} {members : List Member} {n : N}
  {name label first second : String}

theorem whole_write (schema : Schema N) (s : Shape N) (d : Datum) : (write schema s d).Whole :=
  Tree.whole_of_keepBreak? _ (keepBreak?_write s d)

/-! One level of a datum that is read. -/

theorem lt_of_read_nest {lead : Lead} {t : Tree} (h : read schema s (nest lead opened t) = .ok d) :
    opened < maxOpen ∧ read schema s t = .ok d := by
  unfold nest at h
  split at h
  · next hopened => exact ⟨hopened, h⟩
  · exact absurd h (read_flawed _)

theorem items_of_read_list {items : List Tree} {close : Close}
    (h : read schema (.list item) (.array items close) = .ok d) :
    ∃ ds, readItems schema item items = .ok ds ∧ d = .list ds := by
  rw [read] at h
  obtain ⟨ds, hitems, h⟩ := exists_of_bind_eq_ok h
  obtain ⟨_, _, h⟩ := exists_of_bind_eq_ok h
  exact ⟨ds, hitems, (Except.ok.inj h).symm⟩

theorem exists_of_map_eq_ok {ε α β : Type} {x : Except ε α} {f : α → β} {b : β}
    (h : x.map f = .ok b) : ∃ a, x = .ok a ∧ f a = b := by
  cases x with
  | error e => cases h
  | ok a => exact ⟨a, rfl, Except.ok.inj h⟩

theorem fields_of_read_record {close : Close} (entry : schema n = .record fields)
    (h : read schema (.named n) (.object members close) = .ok d) :
    ∃ ds, readMembers schema fields [] members close = .ok ds ∧ d = .record ds := by
  rw [read.eq_def] at h
  simp only [entry] at h
  obtain ⟨ds, hds, rfl⟩ := exists_of_map_eq_ok h
  exact ⟨ds, hds, rfl⟩

theorem fields_of_read_shorthand {close : Close} (entry : schema n = .shorthand label fields)
    (h : read schema (.named n) (.object members close) = .ok d) :
    ∃ ds, readMembers schema fields [] members close = .ok ds ∧ d = .record ds := by
  rw [read.eq_def] at h
  simp only [entry] at h
  obtain ⟨_, _, h⟩ := exists_of_bind_eq_ok h
  split at h
  · next ds hds => exact ⟨ds, hds, (Except.ok.inj h).symm⟩
  · cases h

theorem fields_of_read_either {close : Close}
    (entry : schema n = .either label first second short long)
    (h : read schema (.named n) (.object members close) = .ok d) :
    (∃ ds, readMembers schema short [] members close = .ok ds ∧ d = .variant first (.record ds))
      ∨ (∃ e, readMembers schema short [] members close = .error e)
        ∧ ∃ ds, readMembers schema long [] members close = .ok ds
          ∧ d = .variant second (.record ds) := by
  rw [read.eq_def] at h
  simp only [entry] at h
  obtain ⟨_, _, h⟩ := exists_of_bind_eq_ok h
  split at h
  · next ds hds => exact .inl ⟨ds, hds, (Except.ok.inj h).symm⟩
  · next e he =>
    split at h
    · next ds hds => exact .inr ⟨⟨e, he⟩, ds, hds, (Except.ok.inj h).symm⟩
    · cases h

theorem content_of_read_choice {variants : List (Variant N)} {own : String} {t : Tree}
    {others : List Member} {close : Close} (entry : schema n = .choice variants)
    (found : variants.find? (·.name == name) = some ⟨own, some s⟩)
    (h : read schema (.named n) (.object (⟨.ok name, t⟩ :: others) close) = .ok d) :
    ∃ content, read schema s t = .ok content ∧ d = .variant name content := by
  rw [read.eq_def] at h
  simp only [entry, found] at h
  obtain ⟨content, hcontent, h⟩ := exists_of_bind_eq_ok h
  obtain ⟨_, _, h⟩ := exists_of_bind_eq_ok h
  exact ⟨content, hcontent, (Except.ok.inj h).symm⟩

/-! One field of a record that is read. -/

variable {f : Field N} {found : List (String × Datum)} {close : Close}

theorem mem_zip_of_assemble (h : assemble found fields = .ok ds) (hf : f ∈ fields)
    (hfound : found.lookup f.name = some d) : (f, d) ∈ fields.zip ds := by
  induction fields generalizing ds with
  | nil => cases hf
  | cons g gs ih =>
    rw [assemble] at h
    split at h
    · next e he =>
      obtain ⟨es, hes, rfl⟩ := exists_of_map_eq_ok h
      rw [List.zip_cons_cons]
      rcases List.mem_cons.1 hf with rfl | hf
      · rw [hfound, Option.some_or] at he
        rw [Option.some.inj he]
        exact List.mem_cons_self
      · exact List.mem_cons_of_mem _ (ih hes hf)
    · cases h

theorem readMembers_cons_inv {m : Member}
    (h : readMembers schema fields found (m :: members) close = .ok ds) :
    ∃ key, m.key = .ok key
      ∧ (fields.find? (·.name == key) = none
          ∧ readMembers schema fields found members close = .ok ds
        ∨ ∃ g d, fields.find? (·.name == key) = some g ∧ found.lookup key = none
          ∧ (read schema g.shape m.value = .ok d ∨ d = .absent)
          ∧ readMembers schema fields ((key, d) :: found) members close = .ok ds) := by
  obtain ⟨key, value⟩ := m
  cases key with
  | error e =>
    rw [readMembers] at h
    cases h
  | ok key =>
    rw [readMembers] at h
    refine ⟨key, rfl, ?_⟩
    split at h
    · next hfind =>
      obtain ⟨_, _, h⟩ := exists_of_bind_eq_ok h
      exact .inl ⟨hfind, h⟩
    · next g hfind =>
      split at h
      · cases h
      · next hfresh =>
        rw [Bool.not_eq_true, Option.isSome_eq_false_iff, Option.isNone_iff_eq_none] at hfresh
        refine .inr ?_
        split at h <;> obtain ⟨d, hd, h⟩ := exists_of_bind_eq_ok h
        · exact ⟨g, d, hfind, hfresh, .inr (Except.ok.inj hd).symm, h⟩
        · cases hd
        · exact ⟨g, d, hfind, hfresh, .inl hd, h⟩

theorem mem_zip_of_found (h : readMembers schema fields found members close = .ok ds)
    (hf : f ∈ fields) (hfound : found.lookup f.name = some d) : (f, d) ∈ fields.zip ds := by
  induction members generalizing found with
  | nil =>
    rw [readMembers] at h
    obtain ⟨_, _, h⟩ := exists_of_bind_eq_ok h
    exact mem_zip_of_assemble h hf hfound
  | cons m ms ih =>
    obtain ⟨key, -, ⟨-, h⟩ | ⟨g, e, -, hfresh, -, h⟩⟩ := readMembers_cons_inv h
    · exact ih h hfound
    · refine ih h ?_
      have hne : f.name ≠ key := by
        rintro rfl
        cases hfound.symm.trans hfresh
      rw [List.lookup_cons, beq_eq_false_iff_ne.2 hne]
      exact hfound

/-- A member whose key is the name of a field is read as that field. -/
theorem mem_zip_of_member (hnodup : (fields.map (·.name)).Nodup)
    (h : readMembers schema fields found members close = .ok ds) (hf : f ∈ fields) {t : Tree}
    (ht : ⟨.ok f.name, t⟩ ∈ members) :
    ∃ d, (read schema f.shape t = .ok d ∨ d = .absent) ∧ (f, d) ∈ fields.zip ds := by
  induction members generalizing found with
  | nil => cases ht
  | cons m ms ih =>
    obtain ⟨key, hkey, hcases⟩ := readMembers_cons_inv h
    rcases List.mem_cons.1 ht with rfl | ht
    · obtain rfl := Except.ok.inj hkey
      rcases hcases with ⟨hfind, -⟩ | ⟨g, d, hfind, -, hread, h⟩
      · cases (find?_name hnodup hf).symm.trans hfind
      · obtain rfl := Option.some.inj ((find?_name hnodup hf).symm.trans hfind)
        refine ⟨d, hread, mem_zip_of_found h hf ?_⟩
        simp
    · rcases hcases with ⟨-, h⟩ | ⟨_, _, -, -, -, h⟩ <;> exact ih h ht

theorem readMembers_skip (h : ∀ m ∈ members, ∃ key, m.key = .ok key
      ∧ fields.find? (·.name == key) = none ∧ m.value.skipBreak? = none) :
    readMembers schema fields found members .closed = assemble found fields := by
  induction members with
  | nil =>
    rw [readMembers]
    rfl
  | cons m ms ih =>
    rw [List.forall_mem_cons] at h
    obtain ⟨⟨key, hkey, hfind, hskip⟩, h⟩ := h
    obtain ⟨key', value⟩ := m
    obtain rfl : key' = .ok key := hkey
    rw [readMembers]
    simp only [hfind]
    rw [show value.skipBreak? = none from hskip, ih h]
    rfl

theorem rel_of_mem_zip {R : Datum → Datum → Prop} (hnodup : (fields.map (·.name)).Nodup)
    (h : List.Forall₂ R ds' ds) (hd' : (f, d') ∈ fields.zip ds') (hd : (f, d) ∈ fields.zip ds) :
    R d' d := by
  induction h generalizing fields with
  | nil => simp at hd
  | cons head tail ih =>
    cases fields with
    | nil => cases hd
    | cons g gs =>
      rw [List.map_cons, List.nodup_cons] at hnodup
      rw [List.zip_cons_cons, List.mem_cons, Prod.mk.injEq] at hd' hd
      have hfresh : f ∈ gs → f ≠ g := fun hf heq => hnodup.1 (heq ▸ List.mem_map_of_mem hf)
      rcases hd' with ⟨hg', rfl⟩ | hd' <;> rcases hd with ⟨hg, rfl⟩ | hd
      · exact head
      · exact absurd hg' (hfresh (List.of_mem_zip hd).1)
      · exact absurd hg (hfresh (List.of_mem_zip hd').1)
      · exact ih hnodup.2 hd' hd

end

end Scribe.Json
