import Mathlib.Algebra.Group.Nat.Defs
import Scribe.Number.Scaled
import Scribe.Text.Digit

/-!
Integers of a machine word are spelled by their digits, and are within the range of doubles.
-/
namespace Scribe

/-! Ranks of quotients. -/

namespace Binary

variable {num den k : Nat}

theorem floorLog2_bounds (num den : Nat) :
    (num.log2 : Int) - den.log2 - 1 ≤ floorLog2 num den
      ∧ floorLog2 num den ≤ (num.log2 : Int) - den.log2 := by
  unfold floorLog2
  dsimp only
  split <;> omega

theorem lt_of_log2_sub_lt (hden : den ≠ 0) (h : (num.log2 : Int) - den.log2 < k) :
    num < den * 2 ^ k := by
  calc num < 2 ^ (num.log2 + 1) := Nat.lt_log2_self
    _ ≤ 2 ^ (den.log2 + k) := Nat.pow_le_pow_right (by decide) (by omega)
    _ = 2 ^ den.log2 * 2 ^ k := Nat.pow_add ..
    _ ≤ den * 2 ^ k := Nat.mul_le_mul_right _ (Nat.log2_self_le hden)

theorem log2_le_of_lt (hnum : num ≠ 0) (h : num < den * 2 ^ k) : num.log2 ≤ den.log2 + k := by
  refine Nat.le_of_not_lt fun hlt => ?_
  have hle : den * 2 ^ k ≤ num := by
    calc den * 2 ^ k ≤ 2 ^ (den.log2 + 1) * 2 ^ k :=
          Nat.mul_le_mul_right _ (Nat.le_of_lt Nat.lt_log2_self)
      _ = 2 ^ (den.log2 + 1 + k) := (Nat.pow_add ..).symm
      _ ≤ 2 ^ num.log2 := Nat.pow_le_pow_right (by decide) (by omega)
      _ ≤ num := Nat.log2_self_le hnum
  omega

theorem roundDiv_le {m : Nat} (h : num < den * m) : roundDiv num den ≤ m := by
  have hquotient : num / den < m := Nat.div_lt_of_lt_mul h
  unfold roundDiv
  dsimp only
  split <;> omega

theorem nearestRank_le {l : Layout} (hprecision : 0 < l.precision) (hden : den ≠ 0)
    (h : num < den * 2 ^ k) : nearestRank l num den ≤
      ((k : Int) - (l.precision - 1 : Nat) - l.leastExponent).toNat * l.bucket
        + 2 ^ (l.precision + 1) := by
  unfold nearestRank
  split
  · exact Nat.zero_le _
  · next hnum =>
    dsimp only
    have hlog := log2_le_of_lt hnum h
    obtain ⟨hlow, hhigh⟩ := floorLog2_bounds num den
    generalize hunit : max (floorLog2 num den - (l.precision - 1 : Nat)) l.leastExponent = unit
    have hle : (unit - l.leastExponent).toNat * l.bucket ≤
        ((k : Int) - (l.precision - 1 : Nat) - l.leastExponent).toNat * l.bucket :=
      Nat.mul_le_mul_right _ (by omega)
    refine Nat.le_trans (Nat.min_le_left _ _) (Nat.add_le_add hle ?_)
    -- Two more bits than the precision: one for the estimate of the logarithm, one to be below.
    split
    · apply roundDiv_le
      calc num * Nat.pow 2 unit.natAbs
          < 2 ^ (num.log2 + 1) * 2 ^ unit.natAbs :=
            Nat.mul_lt_mul_of_pos_right Nat.lt_log2_self (Nat.two_pow_pos _)
        _ = 2 ^ (num.log2 + 1 + unit.natAbs) := (Nat.pow_add ..).symm
        _ ≤ 2 ^ (den.log2 + (l.precision + 1)) := Nat.pow_le_pow_right (by decide) (by omega)
        _ = 2 ^ den.log2 * 2 ^ (l.precision + 1) := Nat.pow_add ..
        _ ≤ den * 2 ^ (l.precision + 1) := Nat.mul_le_mul_right _ (Nat.log2_self_le hden)
    · apply roundDiv_le
      calc num < den * 2 ^ (unit.natAbs + (l.precision + 1)) :=
            lt_of_log2_sub_lt hden (by omega)
        _ = den * Nat.pow 2 unit.natAbs * 2 ^ (l.precision + 1) := by
            rw [Nat.pow_add, ← Nat.mul_assoc]
            rfl

theorem significand_lt (x : Binary64) : x.significand < 2 ^ 53 := by
  have hmod : x.rank % Layout.binary64.bucket < Layout.binary64.bucket :=
    Nat.mod_lt _ (by decide)
  have hbucket : Layout.binary64.bucket = 2 ^ 52 := rfl
  unfold significand
  split <;> omega

theorem ratio_lt {x : Binary64} (h : x.exponent ≤ k) :
    x.ratio.1 < x.ratio.2 * 2 ^ (53 + k) ∧ x.ratio.2 ≠ 0 := by
  have hsignificand := x.significand_lt
  unfold ratio
  split
  · refine ⟨?_, Nat.ne_of_gt (Nat.two_pow_pos _)⟩
    calc x.significand < 2 ^ 53 := hsignificand
      _ ≤ 2 ^ (53 + k) := Nat.pow_le_pow_right (by decide) (by omega)
      _ ≤ 2 ^ x.exponent.natAbs * 2 ^ (53 + k) := Nat.le_mul_of_pos_left _ (Nat.two_pow_pos _)
  · refine ⟨?_, Nat.one_ne_zero⟩
    calc x.significand * Nat.pow 2 x.exponent.natAbs
        < 2 ^ 53 * 2 ^ x.exponent.natAbs :=
          Nat.mul_lt_mul_of_pos_right hsignificand (Nat.two_pow_pos _)
      _ = 2 ^ (53 + x.exponent.natAbs) := (Nat.pow_add ..).symm
      _ ≤ 2 ^ (53 + k) := Nat.pow_le_pow_right (by decide) (by omega)
      _ = 1 * 2 ^ (53 + k) := (Nat.one_mul _).symm

end Binary

namespace Scaled

theorem exponent_ofDecimal_le {n : Nat} (h : n < UInt64.size) :
    (Binary.ofDecimal .binary64 { digits := n, exponent := 0 }).exponent ≤ (15 : Nat) := by
  have hrank : (Binary.ofDecimal .binary64 { digits := n, exponent := 0 }).rank ≤ 1090 * 2 ^ 52 := by
    unfold Binary.ofDecimal
    dsimp only
    split
    · exact Nat.zero_le _
    · rw [if_neg (by decide), if_neg, if_neg (by decide)]
      · exact Binary.nearestRank_le (k := 64) (by decide) Nat.one_ne_zero (by simpa using h)
      · have hleast : Layout.binary64.leastExponent = -1074 := rfl
        omega
  have hbucket : Layout.binary64.bucket = 2 ^ 52 := rfl
  have hleast : Layout.binary64.leastExponent = -1074 := rfl
  unfold Binary.exponent
  rw [hbucket, hleast]
  omega

theorem ratio_powerOfTen_zero : (powerOfTen 0).ratio = (2 ^ 52, 2 ^ 52) := by decide +kernel

theorem isSome_toBinary64? (negative : Bool) {n : Nat} (h : n < UInt64.size) :
    (toBinary64? negative ⟨n, 0⟩).isSome := by
  obtain ⟨hlt, hne⟩ := Binary.ratio_lt (exponent_ofDecimal_le h)
  have hfinite : ((Binary.ofDecimal .binary64 { digits := n, exponent := 0 }).mul
      (powerOfTen 0)).isFinite := by
    unfold Binary.isFinite Binary.mul
    rw [ratio_powerOfTen_zero, decide_eq_true_eq]
    refine Nat.lt_of_le_of_lt (Binary.nearestRank_le (k := 68) (by decide) ?_ ?_) (by decide)
    · exact Nat.mul_ne_zero hne (by decide)
    · rw [Nat.mul_right_comm]
      exact Nat.mul_lt_mul_of_pos_right hlt (by decide)
  have hsign : ¬ (0 : Int) < 0 := by decide
  unfold toBinary64?
  dsimp only
  rw [if_neg hsign, Int.natAbs_zero, if_pos (Nat.zero_le greatestPower), if_pos hfinite]
  rfl

theorem le_foldl_digits (ds : List Nat) (s : Nat) : s ≤ ds.foldl (fun n d => n * 10 + d) s := by
  induction ds generalizing s with
  | nil => exact Nat.le_refl s
  | cons d ds ih => exact Nat.le_trans (by omega) (ih (s * 10 + d))

/-- Digits that spell a word all find room. -/
theorem addWhole_eq {ds : List Nat} {s : Nat}
    (h : ds.foldl (fun n d => n * 10 + d) s < UInt64.size) :
    addWhole ⟨s, 0⟩ ds = ⟨ds.foldl (fun n d => n * 10 + d) s, 0⟩ := by
  induction ds generalizing s with
  | nil => rfl
  | cons d ds ih =>
    have hroom : hasRoom s d := decide_eq_true (Nat.lt_of_le_of_lt (le_foldl_digits ds _) h)
    rw [addWhole, if_pos hroom]
    exact ih h

end Scaled

theorem toList_paddedDigits_one (n : Nat) : (paddedDigits 1 n).toList = Nat.toDigits 10 n := by
  have hlength : 1 - (Nat.toDigits 10 n).length = 0 :=
    Nat.sub_eq_zero_of_le Nat.length_toDigits_pos
  unfold paddedDigits
  dsimp only
  rw [hlength, String.toList_ofList]
  rfl

theorem foldl_digits_one (n : Nat) :
    (Scaled.digits 1 n).foldl (fun n d => n * 10 + d) 0 = n := by
  unfold Scaled.digits
  rw [toList_paddedDigits_one, List.foldl_map]
  calc (Nat.toDigits 10 n).foldl (fun n c => n * 10 + (c.toNat - '0'.toNat)) 0
      = Nat.ofDigitChars 10 (Nat.toDigits 10 n) 0 := by
        simp only [Nat.ofDigitChars, Nat.mul_comm]
    _ = n := Nat.ofDigitChars_ten_toDigits

theorem Numeral.isSome_toBinary64?_ofInt {i : Int} (h : i.natAbs < UInt64.size) :
    (Numeral.ofInt i).toBinary64?.isSome := by
  have hdigits := foldl_digits_one i.natAbs
  have hscaled : Scaled.ofNumeral (.ofInt i) = ⟨i.natAbs, 0⟩ := by
    unfold Scaled.ofNumeral Numeral.ofInt
    dsimp only
    rw [Scaled.addWhole_eq (hdigits.symm ▸ h), hdigits]
    rfl
  unfold Numeral.toBinary64?
  rw [hscaled]
  exact Scaled.isSome_toBinary64? _ h

theorem exists_head_toDigits (n : Nat) : ∃ d ds, Nat.toDigits 10 n = d :: ds ∧ d.isDigit = true := by
  obtain ⟨d, ds, hdigits⟩ := List.exists_cons_of_ne_nil (@Nat.toDigits_ne_nil n 10)
  have hmem : d ∈ Nat.toDigits 10 n := by
    rw [hdigits]
    exact List.mem_cons_self
  exact ⟨d, ds, hdigits, Nat.isDigit_of_mem_toDigits (by decide) (by decide) hmem⟩

theorem spell_toDigits (n : Nat) : Text.spell 10 (Nat.toDigits 10 n) = n := by
  have hspell (cs : List Char) (hcs : ∀ c ∈ cs, c.isDigit) (init : Nat) :
      cs.foldl (fun n c => 10 * n + (Text.digitValue? c).getD 0) init =
        Nat.ofDigitChars 10 cs init := by
    induction cs generalizing init with
    | nil => rfl
    | cons c cs ih =>
      rw [List.forall_mem_cons] at hcs
      have hvalue : Text.digitValue? c = some (c.toNat - '0'.toNat) := if_pos hcs.1
      rw [List.foldl_cons, hvalue, ih hcs.2, Nat.ofDigitChars_cons]
      rfl
  calc Text.spell 10 (Nat.toDigits 10 n) = Nat.ofDigitChars 10 (Nat.toDigits 10 n) 0 :=
        hspell _ (fun c hc => Nat.isDigit_of_mem_toDigits (by decide) (by decide) hc) 0
    _ = n := Nat.ofDigitChars_ten_toDigits

theorem head?_toDigits {n : Nat} (h : 0 < n) : (Nat.toDigits 10 n).head? ≠ some '0' := by
  have hdigit : ∀ d < 10, 0 < d → d.digitChar ≠ '0' := by decide
  induction n using Nat.strongRecOn with
  | _ n ih =>
    rw [Nat.toDigits_eq_if (by decide)]
    split
    · next hlt => exact fun heq => hdigit n hlt h (Option.some.inj heq)
    · rw [List.head?_append, Option.or_of_isSome (by simp)]
      exact ih (n / 10) (by omega) (by omega)

end Scribe
