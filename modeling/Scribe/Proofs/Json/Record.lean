import Scribe.Json.Schema
import Mathlib.Data.List.Nodup

/-!
Data of a shape, and records among them: which fields are written, and how the record is read from
the object that holds them.
-/
namespace Scribe.Json

namespace Datum

mutual

/-- A datum and all that it is made of. -/
def parts : Datum → List Datum
  | .list ds => .list ds :: partsAll ds
  | .record ds => .record ds :: partsAll ds
  | .variant name d => .variant name d :: d.parts
  | d => [d]

def partsAll : List Datum → List Datum
  | [] => []
  | d :: ds => d.parts ++ partsAll ds

end

theorem mem_parts_self (d : Datum) : d ∈ d.parts := by
  cases d <;> exact List.mem_cons_self

end Datum

section

variable {N : Type} (schema : Schema N)

mutual

inductive Typed : Shape N → Datum → Prop
  | string (s : String) : Typed .string (.string s)
  | bool (b : Bool) : Typed .bool (.bool b)
  | size (n : UInt64) : Typed .size (.size n)
  | integer (i : Int64) : Typed .integer (.integer i)
  | binary32 (x : Binary32) : Typed .binary32 (.binary32 x)
  | binary64 (x : Binary64) : Typed .binary64 (.binary64 x)
  | list {item : Shape N} {ds : List Datum} (items : TypedItems item ds) :
    Typed (.list item) (.list ds)
  | record {n : N} {fields : List (Field N)} {ds : List Datum} (entry : schema n = .record fields)
    (contents : TypedFields fields ds) : Typed (.named n) (.record ds)
  | shorthand {n : N} {label : String} {fields : List (Field N)} {ds : List Datum}
    (entry : schema n = .shorthand label fields) (contents : TypedFields fields ds) :
    Typed (.named n) (.record ds)
  | unit {n : N} {variants : List (Variant N)} {name own : String}
    (entry : schema n = .choice variants)
    (found : variants.find? (·.name == name) = some ⟨own, none⟩) :
    Typed (.named n) (.variant name .absent)
  | choice {n : N} {variants : List (Variant N)} {name own : String} {s : Shape N} {d : Datum}
    (entry : schema n = .choice variants)
    (found : variants.find? (·.name == name) = some ⟨own, some s⟩) (content : Typed s d) :
    Typed (.named n) (.variant name d)
  | first {n : N} {label first second : String} {short long : List (Field N)} {ds : List Datum}
    (entry : schema n = .either label first second short long)
    (contents : TypedFields short ds) : Typed (.named n) (.variant first (.record ds))
  | second {n : N} {label first second : String} {short long : List (Field N)} {ds : List Datum}
    (entry : schema n = .either label first second short long)
    (contents : TypedFields long ds) : Typed (.named n) (.variant second (.record ds))

inductive TypedItems : Shape N → List Datum → Prop
  | nil (s : Shape N) : TypedItems s []
  | cons {s : Shape N} {d : Datum} {ds : List Datum} (head : Typed s d) (tail : TypedItems s ds) :
    TypedItems s (d :: ds)

inductive TypedFields : List (Field N) → List Datum → Prop
  | nil : TypedFields [] []
  | absent {f : Field N} {fs : List (Field N)} {ds : List Datum} (optional : f.presence = .optional)
    (tail : TypedFields fs ds) : TypedFields (f :: fs) (.absent :: ds)
  | cons {f : Field N} {fs : List (Field N)} {d : Datum} {ds : List Datum} (head : Typed f.shape d)
    (tail : TypedFields fs ds) : TypedFields (f :: fs) (d :: ds)

end

end

/-- A field that is left unwritten when blank has the blank of its shape as its default. -/
def Field.coherent (f : Field N) : Bool :=
  match f.presence, f.shape with
  | .sparse (.list []), .list _ => true
  | .sparse (.size n), .size => n == 0
  | .sparse _, _ => false
  | _, _ => true

def coherentFields (fields : List (Field N)) : Bool :=
  decide (fields.map (·.name)).Nodup && fields.all (·.coherent)

/-- What a schema needs for its data to be read back. -/
def Description.coherent : Description N → Bool
  | .record fields | .shorthand _ fields => coherentFields fields
  | .choice _ => true
  | .either _ first second short long =>
    first != second && coherentFields short && coherentFields long

section

variable {N : Type} {schema : Schema N} {s : Shape N} {d : Datum}

theorem exists_of_bind_eq_ok {ε α β : Type} {x : Except ε α} {f : α → Except ε β} {b : β}
    (h : (x >>= f) = .ok b) : ∃ a, x = .ok a ∧ f a = .ok b := by
  cases x with
  | error e => exact nomatch h
  | ok a => exact ⟨a, rfl, h⟩

theorem read_null : read schema s .null ≠ .ok d := by
  cases s with
  | named n => cases h : schema n <;> simp [read, h]
  | _ => simp [read, scalar]

theorem read_flawed (f : Flaw) : read schema s (.flawed f) ≠ .ok d := by
  cases s with
  | named n => cases h : schema n <;> simp [read, h]
  | _ => simp [read]

variable {fields : List (Field N)} {found : List (String × Datum)} {members : List Member}
  {close : Close} {f : Field N} {key : String} {t : Tree}

theorem readMembers_cons (hfind : fields.find? (·.name == key) = some f)
    (hfresh : found.lookup key = none) (hread : read schema f.shape t = .ok d) :
    readMembers schema fields found (⟨.ok key, t⟩ :: members) close =
      readMembers schema fields ((key, d) :: found) members close := by
  rw [readMembers]
  simp only [hfind, hfresh, Option.isSome_none, Bool.false_eq_true, ↓reduceIte]
  split
  · exact absurd hread read_null
  · exact absurd hread (read_flawed _)
  · rw [hread]
    rfl

theorem lookup_of_assemble {ds : List Datum} (h : assemble found fields = .ok ds) (hf : f ∈ fields)
    (hrequired : f.presence.default? = none) : (found.lookup f.name).isSome := by
  induction fields generalizing ds with
  | nil => exact nomatch hf
  | cons g gs ih =>
    rw [assemble] at h
    cases hg : (found.lookup g.name).or g.presence.default? with
    | none =>
      rw [hg] at h
      exact nomatch h
    | some d =>
      rw [hg] at h
      rcases List.mem_cons.1 hf with rfl | hf
      · rw [hrequired, Option.or_none] at hg
        rw [hg]
        rfl
      · cases hrest : assemble found gs with
        | error e =>
          rw [hrest] at h
          exact nomatch h
        | ok rest => exact ih hrest hf

theorem required_of_readMembers {ds : List Datum}
    (h : readMembers schema fields found members close = .ok ds) (hf : f ∈ fields)
    (hrequired : f.presence.default? = none) :
    (found.lookup f.name).isSome ∨ ∃ m ∈ members, m.key = .ok f.name := by
  induction members generalizing found with
  | nil =>
    rw [readMembers] at h
    refine .inl ?_
    cases hclose : check close.break? with
    | error e =>
      rw [hclose] at h
      exact nomatch h
    | ok u =>
      rw [hclose] at h
      exact lookup_of_assemble h hf hrequired
  | cons m ms ih =>
    obtain ⟨key, t⟩ := m
    -- A member that is read adds no key to what was found but its own.
    have later {found' : List (String × Datum)} (hstep : ∀ k, (found'.lookup k).isSome →
          (found.lookup k).isSome ∨ key = .ok k)
        (hrest : readMembers schema fields found' ms close = .ok ds) :
        (found.lookup f.name).isSome ∨ ∃ m ∈ (⟨key, t⟩ : Member) :: ms, m.key = .ok f.name := by
      rcases ih hrest with hfound | ⟨m, hm, hkey⟩
      · exact (hstep _ hfound).imp_right fun hkey => ⟨_, List.mem_cons_self, hkey⟩
      · exact .inr ⟨m, List.mem_cons_of_mem _ hm, hkey⟩
    cases key with
    | error e =>
      rw [readMembers] at h
      exact nomatch h
    | ok key =>
      rw [readMembers] at h
      split at h
      · obtain ⟨_, _, hrest⟩ := exists_of_bind_eq_ok h
        exact later (fun k hk => .inl hk) hrest
      · split at h
        · exact nomatch h
        · obtain ⟨d, hrest⟩ : ∃ d,
              readMembers schema fields ((key, d) :: found) ms close = .ok ds := by
            split at h <;> obtain ⟨d, _, hrest⟩ := exists_of_bind_eq_ok h <;> exact ⟨d, hrest⟩
          refine later (fun k hk => ?_) hrest
          rw [List.lookup_cons] at hk
          by_cases hkey : k = key
          · exact .inr (hkey ▸ rfl)
          · rw [beq_eq_false_iff_ne.2 hkey] at hk
            exact .inl hk

/-! Records that are written. -/

def Field.isWritten (f : Field N) (d : Datum) : Bool :=
  match f.presence, d with
  | .optional, .absent => false
  | .sparse _, d => !d.isBlank
  | _, _ => true

def written (fields : List (Field N)) (ds : List Datum) : List (Field N × Datum) :=
  (fields.zip ds).filter fun p => p.1.isWritten p.2

theorem writeFields_of_written {fs : List (Field N)} {ds : List Datum} (h : f.isWritten d = true) :
    writeFields schema (f :: fs) (d :: ds) =
      ⟨.ok f.name, write schema f.shape d⟩ :: writeFields schema fs ds := by
  unfold Field.isWritten at h
  split at h
  · exact nomatch h
  · next v hf =>
    rw [writeFields.eq_4 schema ds f fs _ v hf, if_neg (by simpa using h)]
  · next hoptional hsparse => exact writeFields.eq_5 schema ds f fs _ hoptional hsparse

theorem writeFields_of_unwritten {fs : List (Field N)} {ds : List Datum}
    (h : f.isWritten d = false) :
    writeFields schema (f :: fs) (d :: ds) = writeFields schema fs ds := by
  unfold Field.isWritten at h
  split at h
  · next hf => exact writeFields.eq_3 schema ds f fs hf
  · next v hf =>
    rw [writeFields.eq_4 schema ds f fs _ v hf, if_pos (by simpa using h)]
  · exact nomatch h

theorem writeFields_eq (fields : List (Field N)) (ds : List Datum) :
    writeFields schema fields ds =
      (written fields ds).map fun p => ⟨.ok p.1.name, write schema p.1.shape p.2⟩ := by
  unfold written
  induction ds generalizing fields with
  | nil => rw [writeFields, List.zip_nil_right]; rfl
  | cons d ds ih =>
    cases fields with
    | nil => rw [writeFields]; rfl
    | cons f fs =>
      rw [List.zip_cons_cons, List.filter_cons]
      cases h : f.isWritten d with
      | true => rw [writeFields_of_written h, ih, if_pos rfl, List.map_cons]
      | false => rw [writeFields_of_unwritten h, ih, if_neg Bool.false_ne_true]

/-! Distinct names. -/

theorem find?_name (hnodup : (fields.map (·.name)).Nodup) (hf : f ∈ fields) :
    fields.find? (·.name == f.name) = some f := by
  cases hfind : fields.find? (·.name == f.name) with
  | none => exact absurd (List.find?_eq_none.1 hfind f hf) (by simp)
  | some g =>
    have hname := List.find?_some hfind
    rw [beq_iff_eq] at hname
    exact congrArg some
      (List.inj_on_of_nodup_map hnodup (List.mem_of_find?_eq_some hfind) hf hname)

theorem lookup_of_mem {l : List (String × Datum)} (hnodup : (l.map (·.1)).Nodup)
    (hmem : (key, d) ∈ l) : l.lookup key = some d := by
  induction l with
  | nil => exact nomatch hmem
  | cons p ps ih =>
    rw [List.map_cons, List.nodup_cons] at hnodup
    rw [List.lookup_cons]
    rcases List.mem_cons.1 hmem with rfl | hmem
    · simp
    · have hne : key ≠ p.1 := by
        intro heq
        exact hnodup.1 (List.mem_map.2 ⟨(key, d), hmem, heq⟩)
      rw [beq_eq_false_iff_ne.2 hne]
      exact ih hnodup.2 hmem

theorem readMembers_map {tree : Field N × Datum → Tree} {ps : List (Field N × Datum)}
    (hfields : (fields.map (·.name)).Nodup) (hps : (ps.map (·.1.name)).Nodup)
    (hmem : ∀ p ∈ ps, p.1 ∈ fields) (hfresh : ∀ p ∈ ps, found.lookup p.1.name = none)
    (hread : ∀ p ∈ ps, read schema p.1.shape (tree p) = .ok p.2) :
    readMembers schema fields found (ps.map fun p => ⟨.ok p.1.name, tree p⟩) .closed =
      assemble ((ps.map fun p => (p.1.name, p.2)).reverse ++ found) fields := by
  induction ps generalizing found with
  | nil => rw [List.map_nil, readMembers]; rfl
  | cons p ps ih =>
    rw [List.map_cons, List.nodup_cons] at hps
    simp only [List.forall_mem_cons] at hmem hfresh hread
    rw [List.map_cons, readMembers_cons (find?_name hfields hmem.1) hfresh.1 hread.1,
      ih hps.2 hmem.2 (fun q hq => ?_) hread.2]
    · rw [List.map_cons, List.reverse_cons, List.append_assoc]
      rfl
    · have hne : q.1.name ≠ p.1.name := fun heq => hps.1 (heq ▸ List.mem_map_of_mem hq)
      rw [List.lookup_cons, beq_eq_false_iff_ne.2 hne]
      exact hfresh.2 q hq

/-! Records that are read back. -/

theorem TypedFields.length_eq {fields : List (Field N)} {ds : List Datum} :
    TypedFields schema fields ds → fields.length = ds.length
  | .nil => rfl
  | .absent _ tail => congrArg (· + 1) tail.length_eq
  | .cons _ tail => congrArg (· + 1) tail.length_eq

theorem TypedFields.of_mem_zip {fields : List (Field N)} {ds : List Datum} {f : Field N}
    {d : Datum} : TypedFields schema fields ds → (f, d) ∈ fields.zip ds →
      f.presence = .optional ∧ d = .absent ∨ Typed schema f.shape d
  | .absent optional tail, h => by
    rw [List.zip_cons_cons] at h
    rcases List.mem_cons.1 h with heq | h
    · rw [Prod.mk.injEq] at heq
      exact .inl ⟨heq.1 ▸ optional, heq.2⟩
    · exact tail.of_mem_zip h
  | .cons head tail, h => by
    rw [List.zip_cons_cons] at h
    rcases List.mem_cons.1 h with heq | h
    · rw [Prod.mk.injEq] at heq
      exact .inr (heq.1 ▸ heq.2 ▸ head)
    · exact tail.of_mem_zip h

/-- What is left unwritten is what reading fills in. -/
theorem default?_of_unwritten (hcoherent : f.coherent)
    (htyped : f.presence = .optional ∧ d = .absent ∨ Typed schema f.shape d)
    (h : f.isWritten d = false) : f.presence.default? = some d := by
  unfold Field.isWritten at h
  split at h
  · next hf => rw [hf]; rfl
  · next v hf =>
    rw [Bool.not_eq_false'] at h
    have htyped : Typed schema f.shape _ :=
      htyped.resolve_left fun hoptional => nomatch hf ▸ hoptional.1
    unfold Field.coherent at hcoherent
    rw [hf] at hcoherent ⊢
    split at hcoherent
    · next hv hshape =>
      rw [hshape] at htyped
      cases htyped with
      | @list _ ds items =>
        cases ds with
        | nil => rw [hv]; rfl
        | cons => exact nomatch h
    · next n hv hshape =>
      rw [hshape] at htyped
      cases htyped with
      | size m =>
        obtain rfl : n = 0 := eq_of_beq hcoherent
        obtain rfl : m = 0 := eq_of_beq h
        rw [hv]
        rfl
    · exact nomatch hcoherent
    · next hsparse _ _ => exact absurd rfl (hsparse v)
  · exact nomatch h

theorem assemble_eq {ds : List Datum} (hlength : fields.length = ds.length)
    (hlookup : ∀ p ∈ fields.zip ds,
      (found.lookup p.1.name).or p.1.presence.default? = some p.2) :
    assemble found fields = .ok ds := by
  induction fields generalizing ds with
  | nil =>
    cases ds with
    | nil => rfl
    | cons d ds => exact nomatch hlength
  | cons f fs ih =>
    cases ds with
    | nil => exact nomatch hlength
    | cons d ds =>
      rw [List.zip_cons_cons, List.forall_mem_cons] at hlookup
      rw [assemble, hlookup.1, ih (Nat.succ.inj hlength) hlookup.2]
      rfl

theorem readMembers_written {tree : Field N × Datum → Tree} {ds : List Datum}
    (hcoherent : coherentFields fields) (htyped : TypedFields schema fields ds)
    (hread : ∀ p ∈ written fields ds, read schema p.1.shape (tree p) = .ok p.2) :
    readMembers schema fields [] ((written fields ds).map fun p => ⟨.ok p.1.name, tree p⟩) .closed =
      .ok ds := by
  unfold coherentFields at hcoherent
  rw [Bool.and_eq_true, decide_eq_true_eq, List.all_eq_true] at hcoherent
  obtain ⟨hnodup, hcoherent⟩ := hcoherent
  have hnames : (fields.zip ds).map (fun p => p.1.name) = fields.map (·.name) := by
    calc (fields.zip ds).map (fun p => p.1.name)
        = ((fields.zip ds).map Prod.fst).map (·.name) := List.map_map.symm
      _ = fields.map (·.name) := by rw [List.map_fst_zip (Nat.le_of_eq htyped.length_eq)]
  have hzip : ((fields.zip ds).map (fun p => p.1.name)).Nodup := hnames ▸ hnodup
  have hsub : (written fields ds).Sublist (fields.zip ds) := List.filter_sublist
  rw [readMembers_map hnodup (hzip.sublist (hsub.map _)) (fun p hp => ?_) (fun _ _ => rfl) hread,
    List.append_nil]
  -- A field that was written is among the members, and any other has its default.
  · apply assemble_eq htyped.length_eq
    intro p hp
    have hkeys : (((written fields ds).map fun p => (p.1.name, p.2)).reverse.map (·.1)).Nodup := by
      rw [List.map_reverse, List.nodup_reverse, List.map_map]
      exact hzip.sublist (hsub.map _)
    cases hwritten : p.1.isWritten p.2 with
    | true =>
      have hmem : p ∈ written fields ds := List.mem_filter.2 ⟨hp, hwritten⟩
      rw [lookup_of_mem hkeys (List.mem_reverse.2 (List.mem_map_of_mem hmem)), Option.some_or]
    | false =>
      rw [List.lookup_eq_none_iff.2, Option.none_or]
      · exact default?_of_unwritten (hcoherent p.1 (List.of_mem_zip hp).1) (htyped.of_mem_zip hp)
          hwritten
      · intro entry hentry
        obtain ⟨q, hq, rfl⟩ := List.mem_map.1 (List.mem_reverse.1 hentry)
        rw [bne_iff_ne]
        intro hname
        obtain rfl := List.inj_on_of_nodup_map hzip hp (hsub.mem hq) hname
        exact absurd (List.mem_filter.1 hq).2 (by simp [hwritten])
  · exact (List.of_mem_zip (hsub.mem hp)).1

end

end Scribe.Json
