/-!
The order of texts is the order of their bytes. UTF-8 keeps the order of code points: a greater
character has a greater leading byte, or the same one and greater bytes after it.
-/
namespace Scribe.Text

def bytes (text : String) : List UInt8 := text.toUTF8.data.toList

theorem bytes_eq (text : String) : bytes text = text.toList.flatMap String.utf8EncodeChar := by
  unfold bytes
  rw [String.toUTF8_eq_toByteArray, ← String.utf8Encode_toList, List.utf8Encode,
    List.toList_data_toByteArray]

/-- A greater character makes greater bytes, whatever follows. -/
theorem utf8EncodeChar_append_lt {c c' : Char} (h : c < c') (bs bs' : List UInt8) :
    String.utf8EncodeChar c ++ bs < String.utf8EncodeChar c' ++ bs' := by
  have hlt : c.val.toNat < c'.val.toNat := h
  have hmax : c'.val.toNat ≤ 0x10FFFF := by
    rcases c'.valid with hv | ⟨_, hv⟩
    · exact Nat.le_trans (Nat.le_of_lt hv) (by decide)
    · exact Nat.le_of_lt_succ hv
  unfold String.utf8EncodeChar
  dsimp only
  generalize c.val.toNat = n at *
  generalize c'.val.toNat = n' at *
  repeat' split
  all_goals
    simp only [List.cons_append, List.nil_append, List.cons_lt_cons_iff, UInt8.lt_iff_toNat_lt,
      ← UInt8.toNat_inj, UInt8.toNat_ofNat']
    simp (disch := omega) only [Nat.mod_eq_of_lt]
    omega

theorem bytes_lt_of_lt {a b : String} (h : a < b) : bytes a < bytes b := by
  rw [bytes_eq, bytes_eq]
  have h : a.toList < b.toList := h
  generalize a.toList = cs at *
  generalize b.toList = cs' at *
  induction h with
  | @nil c cs' =>
    cases hbytes : String.utf8EncodeChar c with
    | nil => exact absurd hbytes String.utf8EncodeChar_ne_nil
    | cons b bs =>
      rw [List.flatMap_cons, hbytes, List.cons_append]
      exact List.nil_lt_cons b _
  | rel h => exact utf8EncodeChar_append_lt h _ _
  | cons _ ih => exact List.append_left_lt ih

end Scribe.Text
