import Scribe.Proofs.Json.Record
import Scribe.Proofs.Json.Tree

/-!
Data of a shape is read back from the tree it is written as. Numerals may come back from a text
spelled in another way, so what is read is a tree with other numerals in the place of those that
were written; all that is asked of them is that they still stand for their numbers.
-/
namespace Scribe.Json

variable {N : Type} {schema : Schema N} {s : Shape N} {d : Datum} {f : Field N}

/-! Trees that are written have no flaws. -/

theorem keepBreak?_writeBinary (style : NumeralStyle) (x : Binary l) :
    (writeBinary style x).keepBreak? = none := by
  unfold writeBinary
  split <;> rfl

mutual

theorem keepBreak?_write (s : Shape N) : (d : Datum) → (write schema s d).keepBreak? = none
  | .string _ | .bool _ | .size _ | .integer _ | .absent => by
    rw [write]
    rfl
  | .binary32 x | .binary64 x => by
    rw [write]
    exact keepBreak?_writeBinary _ x
  | .list ds => by
    cases s with
    | list item =>
      rw [write, Tree.list, Tree.keepBreak?, keepItems?_write item ds]
      rfl
    | _ => simp [write, Tree.keepBreak?]
  | .record ds => by
    rw [write.eq_def]
    dsimp only
    split
    · split
      · exact (congrArg (·.or none) (keepMembers?_write _ ds))
      · exact (congrArg (·.or none) (keepMembers?_write _ ds))
      · rfl
    · rfl
  | .variant name content => by
    rw [write.eq_def]
    dsimp only
    split
    · split
      · split
        · next s _ =>
          simp [Tree.record, Tree.keepBreak?, Tree.keepMembers?, Close.break?,
            keepBreak?_write s content]
        · rfl
      · split
        · next ds => exact (congrArg (·.or none) (keepMembers?_write _ ds))
        · rfl
      · rfl
    · rfl

theorem keepItems?_write (s : Shape N) : (ds : List Datum) →
    Tree.keepItems? (writeItems schema s ds) = none
  | [] => rfl
  | d :: ds => by
    rw [writeItems, Tree.keepItems?, keepBreak?_write s d, keepItems?_write s ds]
    rfl

theorem keepMembers?_write : (fields : List (Field N)) → (ds : List Datum) →
    Tree.keepMembers? (writeFields schema fields ds) = none
  | _, [] => by rw [writeFields]; rfl
  | [], _ :: _ => by rw [writeFields]; rfl
  | f :: fs, d :: ds => by
    cases h : f.isWritten d with
    | true =>
      rw [writeFields_of_written h, Tree.keepMembers?, keepBreak?_write f.shape d,
        keepMembers?_write fs ds]
      rfl
    | false => rw [writeFields_of_unwritten h, keepMembers?_write fs ds]

end

/-! Reading what was written. -/

variable {φ : Numeral → Numeral}

/-- What is asked of the parts of a datum: numbers stand for themselves, and a datum of the second
form of a choice lacks what the first form requires. -/
structure Faithful (schema : Schema N) (φ : Numeral → Numeral) (p : Datum) : Prop where
  binary32 : ∀ x, p = .binary32 x → read schema .binary32 ((writeBinary style32 x).renumber φ) = .ok p
  binary64 : ∀ x, p = .binary64 x → read schema .binary64 ((writeBinary style64 x).renumber φ) = .ok p
  second : ∀ n label first second short long ds, schema n = .either label first second short long →
    TypedFields schema long ds → p = .variant second (.record ds) →
      ∃ f ∈ short, f.presence.default? = none ∧ ∀ q ∈ written long ds, q.1.name ≠ f.name

theorem integer?_ofInt {i : Int} (hmin : minInteger ≤ i) (hmax : i ≤ maxInteger) :
    integer? (.ofInt i) = some i := by
  unfold integer?
  rw [Numeral.integer_ofInt]
  simp only [hmin, hmax, Numeral.isInteger, Numeral.ofInt]
  simp
  omega

theorem size_le_maxInteger (n : UInt64) :
    minInteger ≤ (n.toNat : Int) ∧ (n.toNat : Int) ≤ maxInteger := by
  have := n.toNat_lt
  unfold minInteger maxInteger
  omega

theorem integer_le_maxInteger (i : Int64) :
    minInteger ≤ i.toInt ∧ i.toInt ≤ maxInteger := by
  have := i.le_toInt
  have := i.toInt_lt
  unfold minInteger maxInteger
  omega

theorem readSize_ofInt (n : UInt64) : readSize (.ofInt n.toNat) = .ok (.size n) := by
  have hbounds := size_le_maxInteger n
  unfold readSize
  rw [integer?_ofInt hbounds.1 hbounds.2]
  simp

theorem readInteger_ofInt (i : Int64) : readInteger (.ofInt i.toInt) = .ok (.integer i) := by
  have hbounds := integer_le_maxInteger i
  have hlt := i.toInt_lt
  unfold readInteger
  rw [integer?_ofInt hbounds.1 hbounds.2]
  simp only [Int64.ofInt_toInt]
  rw [if_neg (by omega)]

theorem readMembers_writeFields {fields : List (Field N)} {ds : List Datum}
    (hcoherent : coherentFields fields) (htyped : TypedFields schema fields ds)
    (hread : ∀ p ∈ written fields ds,
      read schema p.1.shape ((write schema p.1.shape p.2).renumber φ) = .ok p.2) :
    readMembers schema fields [] (Tree.renumberMembers φ (writeFields schema fields ds)) .closed =
      .ok ds := by
  rw [writeFields_eq, Tree.renumberMembers_eq, List.map_map]
  exact readMembers_written hcoherent htyped hread

theorem keepBreak?_writeFields (schema : Schema N) (φ : Numeral → Numeral)
    (fields : List (Field N)) (ds : List Datum) :
    (Tree.object (Tree.renumberMembers φ (writeFields schema fields ds)) .closed).keepBreak? =
      none := by
  rw [Tree.keepBreak?, Tree.keepMembers?_renumber, keepMembers?_write]
  rfl

theorem readMembers_error {short long : List (Field N)} {ds : List Datum} (hf : f ∈ short)
    (hrequired : f.presence.default? = none) (hlacks : ∀ q ∈ written long ds, q.1.name ≠ f.name) :
    ∃ e, readMembers schema short [] (Tree.renumberMembers φ (writeFields schema long ds)) .closed =
      .error e := by
  cases hread : readMembers schema short []
      (Tree.renumberMembers φ (writeFields schema long ds)) .closed with
  | error e => exact ⟨e, rfl⟩
  | ok ds' =>
    rcases required_of_readMembers hread hf hrequired with hfound | ⟨m, hm, hkey⟩
    · exact nomatch hfound
    · rw [writeFields_eq, Tree.renumberMembers_eq, List.map_map] at hm
      obtain ⟨q, hq, rfl⟩ := List.mem_map.1 hm
      exact absurd (Except.ok.inj hkey) (hlacks q hq)

/-- What a schema and the numerals of a text need for data to be read back. -/
structure Readable (schema : Schema N) (φ : Numeral → Numeral) : Prop where
  coherent : ∀ n, (schema n).coherent
  integers : ∀ i, minInteger ≤ i → i ≤ maxInteger → φ (.ofInt i) = .ofInt i

-- By the derivation of the shape, in which a field that is not written has a case of its own.
mutual

/-- Data of a shape are read back from what is written for them. -/
theorem read_write (hschema : Readable schema φ) {s : Shape N} {d : Datum} :
    Typed schema s d → (∀ p ∈ d.parts, Faithful schema φ p) →
      read schema s ((write schema s d).renumber φ) = .ok d
  | .string v, _ => by rw [write]; rfl
  | .bool b, _ => by rw [write]; rfl
  | .size n, _ => by
    have hbounds := size_le_maxInteger n
    rw [write, Tree.renumber, hschema.integers _ hbounds.1 hbounds.2]
    exact readSize_ofInt n
  | .integer i, _ => by
    have hbounds := integer_le_maxInteger i
    rw [write, Tree.renumber, hschema.integers _ hbounds.1 hbounds.2]
    exact readInteger_ofInt i
  | .binary32 x, h => by
    rw [write]
    exact (h _ (Datum.mem_parts_self _)).binary32 x rfl
  | .binary64 x, h => by
    rw [write]
    exact (h _ (Datum.mem_parts_self _)).binary64 x rfl
  | .list items, h => by
    rw [write, Tree.list, Tree.renumber, read, readItems_write hschema items fun p hp => ?_]
    · rfl
    · exact h p (List.mem_cons_of_mem _ hp)
  | @Typed.record _ _ n fields ds entry contents, h => by
    have hcoherent := hschema.coherent n
    rw [entry] at hcoherent
    have hmembers := readMembers_writeFields hcoherent contents
      (read_written hschema contents fun p hp => h p (List.mem_cons_of_mem _ hp))
    simp only [write.eq_def, entry, Tree.renumber, read, hmembers]
    rfl
  | @Typed.shorthand _ _ n label fields ds entry contents, h => by
    have hcoherent := hschema.coherent n
    rw [entry] at hcoherent
    have hmembers := readMembers_writeFields hcoherent contents
      (read_written hschema contents fun p hp => h p (List.mem_cons_of_mem _ hp))
    have hkeep := keepBreak?_writeFields schema φ fields ds
    simp only [write.eq_def, entry, Tree.renumber, read, hkeep, hmembers]
    rfl
  | .unit entry found, _ => by
    simp only [write.eq_def, entry, found, Tree.renumber, read]
  | .choice entry found content, h => by
    have hcontent := read_write hschema content fun p hp => h p (List.mem_cons_of_mem _ hp)
    simp only [write.eq_def _ _ (.variant _ _), entry, found, Tree.record, Tree.renumber,
      List.map_cons, List.map_nil, Tree.renumberMembers, read, hcontent]
    rfl
  | @Typed.first _ _ n label first second short long ds entry contents, h => by
    have hcoherent := hschema.coherent n
    rw [entry, Description.coherent, Bool.and_eq_true, Bool.and_eq_true] at hcoherent
    have hmembers := readMembers_writeFields hcoherent.1.2 contents
      (read_written hschema contents fun p hp =>
        h p (List.mem_cons_of_mem _ (List.mem_cons_of_mem _ hp)))
    have hkeep := keepBreak?_writeFields schema φ short ds
    simp only [write.eq_def, entry, ↓reduceIte, Tree.renumber, read, hkeep, hmembers]
    rfl
  | @Typed.second _ _ n label first second short long ds entry contents, h => by
    have hcoherent := hschema.coherent n
    rw [entry, Description.coherent, Bool.and_eq_true, Bool.and_eq_true, bne_iff_ne] at hcoherent
    have hmembers := readMembers_writeFields hcoherent.2 contents
      (read_written hschema contents fun p hp =>
        h p (List.mem_cons_of_mem _ (List.mem_cons_of_mem _ hp)))
    have hkeep := keepBreak?_writeFields schema φ long ds
    -- The first form is tried before the second, so it has to fail on what is written.
    have hshort : ∃ e, readMembers schema short []
        (Tree.renumberMembers φ (writeFields schema long ds)) .closed = .error e := by
      obtain ⟨f, hf, hrequired, hlacks⟩ := (h _ (Datum.mem_parts_self _)).second n label first second
        short long ds entry contents rfl
      exact readMembers_error hf hrequired hlacks
    obtain ⟨e, hshort⟩ := hshort
    simp only [write.eq_def, entry, if_neg hcoherent.1.1.symm, Tree.renumber, read, hkeep, hshort,
      hmembers]
    rfl

theorem readItems_write (hschema : Readable schema φ) {s : Shape N} {ds : List Datum} :
    TypedItems schema s ds → (∀ p ∈ Datum.partsAll ds, Faithful schema φ p) →
      readItems schema s (Tree.renumberItems φ (writeItems schema s ds)) = .ok ds
  | .nil _, _ => rfl
  | .cons head tail, h => by
    rw [writeItems, Tree.renumberItems, readItems,
      read_write hschema head fun p hp => h p (List.mem_append_left _ hp),
      readItems_write hschema tail fun p hp => h p (List.mem_append_right _ hp)]
    rfl

theorem read_written (hschema : Readable schema φ) {fields : List (Field N)} {ds : List Datum} :
    TypedFields schema fields ds → (∀ p ∈ Datum.partsAll ds, Faithful schema φ p) →
      ∀ p ∈ written fields ds,
        read schema p.1.shape ((write schema p.1.shape p.2).renumber φ) = .ok p.2
  | .nil, _ => nofun
  | @TypedFields.absent _ _ f fs ds optional tail, h => by
    have hunwritten : f.isWritten .absent = false := by
      unfold Field.isWritten
      rw [optional]
    rw [written, List.zip_cons_cons, List.filter_cons_of_neg (by simp [hunwritten])]
    exact read_written hschema tail fun p hp => h p (List.mem_append_right _ hp)
  | @TypedFields.cons _ _ f fs d ds head tail, h => by
    intro p hp
    rw [written, List.zip_cons_cons, List.mem_filter, List.mem_cons] at hp
    obtain ⟨rfl | hp, hwritten⟩ := hp
    · exact read_write hschema head fun p hp => h p (List.mem_append_left _ hp)
    · exact read_written hschema tail (fun p hp => h p (List.mem_append_right _ hp)) p
        (List.mem_filter.2 ⟨hp, hwritten⟩)

end

end Scribe.Json
