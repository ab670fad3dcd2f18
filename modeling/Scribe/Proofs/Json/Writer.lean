import Scribe.Proofs.Json.Reader
import Scribe.Proofs.Json.Schema

/-!
Data of a shape is read back from its text: what is written is sound, so the text gives the tree
back, and the tree gives the data.
-/
namespace Scribe.Json

variable {N : Type} {schema : Schema N} {s : Shape N} {d : Datum}

/-! Numbers. -/

theorem number_of_read {t : Tree} (hs : s = .binary32 ∨ s = .binary64)
    (h : read schema s t = .ok d) : ∃ m, t = .number m := by
  cases t with
  | number m => exact ⟨m, rfl⟩
  | null => exact absurd h read_null
  | flawed f => exact absurd h (read_flawed f)
  | _ => rcases hs with rfl | rfl <;> simp [read, scalar] at h

theorem legible_of_read {n : Numeral} (hs : s = .binary32 ∨ s = .binary64)
    (hread : read schema s (Tree.ofText (Tree.number n).toText).1 = .ok d) :
    n.Legible ∧ read schema s (.number n.reread) = .ok d := by
  rw [ofText_toText_image (t := .number n) trivial] at hread
  obtain ⟨m, hm⟩ := number_of_read hs hread
  have hscan : scanNumeral (n.toText "+").toList = (.number m, some []) := by
    rw [n.scanNumeral_toText, show n.scanned = .number m from hm]
  have hreread : n.reread = m := by
    unfold Numeral.reread
    rw [hscan]
  rw [hreread]
  exact ⟨Numeral.legible_of_scan hscan rfl, hm ▸ hread⟩

theorem sound_writeBinary {l : Layout} {style : NumeralStyle} {x : Binary l}
    (hs : s = .binary32 ∨ s = .binary64) (hfinite : x.isFinite)
    (hread : read schema s (Tree.ofText (writeBinary style x).toText).1 = .ok d) :
    (∀ opened, (writeBinary style x).Sound opened)
      ∧ read schema s ((writeBinary style x).renumber Numeral.reread) = .ok d := by
  unfold writeBinary at hread ⊢
  rw [if_pos hfinite] at hread ⊢
  obtain ⟨hlegible, hread⟩ := legible_of_read hs hread
  exact ⟨fun _ => hlegible, hread⟩

/-- What is asked of the parts of a datum: numbers are read back from their own texts, and a datum
of the second form of a choice lacks what the first form requires. -/
structure Restored (schema : Schema N) (p : Datum) : Prop where
  binary32 : ∀ x, p = .binary32 x → x.isFinite
    ∧ (Tree.ofText (writeBinary style32 x).toText).2 = true
    ∧ read schema .binary32 (Tree.ofText (writeBinary style32 x).toText).1 = .ok p
  binary64 : ∀ x, p = .binary64 x → x.isFinite
    ∧ (Tree.ofText (writeBinary style64 x).toText).2 = true
    ∧ read schema .binary64 (Tree.ofText (writeBinary style64 x).toText).1 = .ok p
  second : ∀ n label first second short long ds, schema n = .either label first second short long →
    TypedFields schema long ds → p = .variant second (.record ds) →
      ∃ f ∈ short, f.presence.default? = none ∧ ∀ q ∈ written long ds, q.1.name ≠ f.name

namespace Restored

variable {p : Datum} {opened : Nat}

theorem faithful (h : Restored schema p) : Faithful schema Numeral.reread p where
  binary32 x hp := by
    obtain ⟨hfinite, -, hread⟩ := h.binary32 x hp
    exact (sound_writeBinary (.inl rfl) hfinite hread).2
  binary64 x hp := by
    obtain ⟨hfinite, -, hread⟩ := h.binary64 x hp
    exact (sound_writeBinary (.inr rfl) hfinite hread).2
  second := h.second

theorem sound_binary32 {x : Binary32} (h : Restored schema (.binary32 x)) :
    (writeBinary style32 x).Sound opened := by
  obtain ⟨hfinite, -, hread⟩ := h.binary32 x rfl
  exact (sound_writeBinary (.inl rfl) hfinite hread).1 opened

theorem sound_binary64 {x : Binary64} (h : Restored schema (.binary64 x)) :
    (writeBinary style64 x).Sound opened := by
  obtain ⟨hfinite, -, hread⟩ := h.binary64 x rfl
  exact (sound_writeBinary (.inr rfl) hfinite hread).1 opened

end Restored

/-! What is written is sound. -/

theorem natAbs_lt_of_bounds {i : Int} (hmin : minInteger ≤ i) (hmax : i ≤ maxInteger) :
    i.natAbs < UInt64.size := by
  unfold minInteger at hmin
  unfold maxInteger at hmax
  have : UInt64.size = 0x10000000000000000 := rfl
  omega

-- By the datum. What is written where the shape has no place for it is a null or a name, which
-- are sound; a container is sound as long as its height fits within the limit.
mutual

theorem sound_write (s : Shape N) : (d : Datum) → {opened : Nat} →
    (∀ p ∈ d.parts, Restored schema p) → opened + (write schema s d).height ≤ maxOpen →
      (write schema s d).Sound opened
  | .string _, _, _, _ | .bool _, _, _, _ | .absent, _, _, _ => by
    rw [write]
    trivial
  | .size n, _, _, _ => by
    have hbounds := size_le_maxInteger n
    rw [write]
    exact (Numeral.reread_ofInt (natAbs_lt_of_bounds hbounds.1 hbounds.2)).2
  | .integer i, _, _, _ => by
    have hbounds := integer_le_maxInteger i
    rw [write]
    exact (Numeral.reread_ofInt (natAbs_lt_of_bounds hbounds.1 hbounds.2)).2
  | .binary32 x, _, h, _ => by
    rw [write]
    exact (h _ (Datum.mem_parts_self _)).sound_binary32
  | .binary64 x, _, h, _ => by
    rw [write]
    exact (h _ (Datum.mem_parts_self _)).sound_binary64
  | .list ds, _, h, hheight => by
    have hitems := fun p hp => h p (List.mem_cons_of_mem _ hp)
    cases s with
    | list item =>
      rw [write, Tree.list, Tree.height] at hheight
      rw [write, Tree.list]
      exact ⟨rfl, by omega, soundItems_write item ds hitems (by omega)⟩
    | _ => simp [write, Tree.Sound]
  | .record ds, opened, h, hheight => by
    have hobject (fields : List (Field N))
        (hfields : opened + (Tree.object (writeFields schema fields ds) .closed).height ≤ maxOpen) :
        (Tree.object (writeFields schema fields ds) .closed).Sound opened := by
      rw [Tree.height] at hfields
      exact ⟨rfl, by omega, soundMembers_write fields ds
        (fun p hp => h p (List.mem_cons_of_mem _ hp)) (by omega)⟩
    revert hheight
    rw [write.eq_def]
    dsimp only
    split
    · split
      · exact hobject _
      · exact hobject _
      · exact fun _ => trivial
    · exact fun _ => trivial
  | .variant name content, opened, h, hheight => by
    have hcontent := fun p hp => h p (List.mem_cons_of_mem _ hp)
    revert hheight
    rw [write.eq_def]
    dsimp only
    split
    · split
      · split
        · next s _ =>
          intro hheight
          simp only [Tree.record, List.map_cons, Tree.height, Tree.heightMembers] at hheight
          exact ⟨rfl, by omega, ⟨name, rfl⟩, sound_write s content hcontent (by omega), trivial⟩
        · exact fun _ => trivial
      · split
        · next ds =>
          intro hheight
          rw [Tree.height] at hheight
          exact ⟨rfl, by omega, soundMembers_write _ ds
            (fun p hp => hcontent p (List.mem_cons_of_mem _ hp)) (by omega)⟩
        · exact fun _ => trivial
      · exact fun _ => trivial
    · exact fun _ => trivial

theorem soundItems_write (s : Shape N) : (ds : List Datum) → {opened : Nat} →
    (∀ p ∈ Datum.partsAll ds, Restored schema p) →
      opened + Tree.heightItems (writeItems schema s ds) ≤ maxOpen →
        Tree.SoundItems opened (writeItems schema s ds)
  | [], _, _, _ => trivial
  | d :: ds, _, h, hheight => by
    rw [writeItems, Tree.heightItems] at hheight
    rw [writeItems]
    exact ⟨sound_write s d (fun p hp => h p (List.mem_append_left _ hp)) (by omega),
      soundItems_write s ds (fun p hp => h p (List.mem_append_right _ hp)) (by omega)⟩

theorem soundMembers_write : (fields : List (Field N)) → (ds : List Datum) → {opened : Nat} →
    (∀ p ∈ Datum.partsAll ds, Restored schema p) →
      opened + Tree.heightMembers (writeFields schema fields ds) ≤ maxOpen →
        Tree.SoundMembers opened (writeFields schema fields ds)
  | _, [], _, _, _ => by
    rw [writeFields]
    trivial
  | [], _ :: _, _, _, _ => by
    rw [writeFields]
    trivial
  | f :: fs, d :: ds, _, h, hheight => by
    have hhead := fun p hp => h p (List.mem_append_left _ hp)
    have htail := fun p hp => h p (List.mem_append_right _ hp)
    cases hwritten : f.isWritten d with
    | true =>
      rw [writeFields_of_written hwritten, Tree.heightMembers] at hheight
      rw [writeFields_of_written hwritten]
      exact ⟨⟨f.name, rfl⟩, sound_write f.shape d hhead (by omega),
        soundMembers_write fs ds htail (by omega)⟩
    | false =>
      rw [writeFields_of_unwritten hwritten] at hheight ⊢
      exact soundMembers_write fs ds htail hheight

end

theorem read_ofText_write (hschema : ∀ n, (schema n).coherent) (htyped : Typed schema s d)
    (hparts : ∀ p ∈ d.parts, Restored schema p) (hheight : (write schema s d).height ≤ maxOpen) :
    (Tree.ofText (write schema s d).toText).2 = true
      ∧ read schema s (Tree.ofText (write schema s d).toText).1 = .ok d := by
  have hreadable : Readable schema Numeral.reread :=
    ⟨hschema, fun i hmin hmax => (Numeral.reread_ofInt (natAbs_lt_of_bounds hmin hmax)).1⟩
  rw [ofText_toText (sound_write s d hparts (by omega))]
  exact ⟨rfl, read_write hreadable htyped fun p hp => (hparts p hp).faithful⟩

end Scribe.Json
