import Scribe.Json.Lexeme
import Scribe.Json.Printer
import Scribe.Proofs.Number.Integer
import Mathlib.Data.List.TakeWhile

/-!
Strings and numerals are read back from their text, whatever follows it.
-/
namespace Scribe.Json

theorem hexUnit?_control : ∀ n < 0x20,
    hexUnit? '0' '0' (hexDigit (n / 16)) (hexDigit (n % 16)) = some n := by
  decide

theorem keepString_escape (done : List Char) (c : Char) (cs : List Char) :
    keepString done (escape c ++ cs) = keepString (c :: done) cs := by
  unfold escape
  split
  · rfl
  · rfl
  · rfl
  · rfl
  · rfl
  · rfl
  · rfl
  · next hquote hbackslash _ _ _ _ _ =>
    split
    · next hcontrol =>
      simp only [List.cons_append, List.nil_append]
      rw [keepString]
      simp only [hexUnit?_control c.toNat hcontrol]
      rw [if_neg (by omega), if_pos (by omega), Char.ofNat_toNat]
    · next hplain =>
      rw [List.singleton_append, keepString, if_neg hplain]
      · exact hquote
      · exact fun _ _ _ _ _ h _ => hbackslash h
      · exact fun _ h _ => hbackslash h
      · exact fun h _ => hbackslash h
      · exact fun _ _ h _ => hbackslash h

theorem keepString_escapes (done cs : List Char) (rest : List Char) :
    keepString done (cs.flatMap escape ++ '"' :: rest) =
      .ok (String.ofList (done.reverse ++ cs), rest) := by
  induction cs generalizing done with
  | nil => rw [List.flatMap_nil, List.nil_append, List.append_nil, keepString]
  | cons c cs ih =>
    rw [List.flatMap_cons, List.append_assoc, keepString_escape, ih, List.reverse_cons,
      List.append_assoc]
    rfl

theorem toList_quote (s : String) :
    (quote s).toList = '"' :: (s.toList.flatMap escape ++ ['"']) := by
  unfold quote
  simp only [String.toList_append, String.toList_ofList]
  rfl

theorem string_escapes (s : String) (rest : List Char) :
    string (s.toList.flatMap escape ++ '"' :: rest) = (.ok s, some rest) := by
  unfold string
  rw [keepString_escapes, List.reverse_nil, List.nil_append, String.ofList_toList]

/-! Numerals. -/

def EndsNumeral (rest : List Char) : Prop :=
  ∀ c ∈ rest.head?, c.isDigit = false ∧ c ≠ '.' ∧ c ≠ 'e' ∧ c ≠ 'E'

variable {n m : Numeral} {t : Tree} {cs rest after : List Char}

theorem takeWhile_isDigit_append (h : EndsNumeral rest) (cs : List Char) :
    (cs ++ rest).takeWhile Char.isDigit = cs.takeWhile Char.isDigit
      ∧ (cs ++ rest).dropWhile Char.isDigit = cs.dropWhile Char.isDigit ++ rest := by
  induction cs with
  | nil =>
    cases rest with
    | nil => exact ⟨rfl, rfl⟩
    | cons c rest =>
      have hc := (h c rfl).1
      simp [hc]
  | cons c cs ih =>
    cases hc : c.isDigit <;> simp [hc, ih]

theorem keepNumeral_append (h : keepNumeral n cs = (t, some after)) :
    keepNumeral n (cs ++ rest) = (t, some (after ++ rest)) := by
  unfold keepNumeral at h ⊢
  split at h
  all_goals
    obtain ⟨ht, hcs⟩ := Prod.mk.inj h
    obtain rfl := Option.some.inj hcs
    simp only [*, ↓reduceIte, Bool.false_eq_true]

def exponentDigits (n : Numeral) (negative : Bool) (cs : List Char) : Tree × Rest :=
  match cs.takeWhile Char.isDigit with
  | [] => digitMissing cs
  | digits =>
    let e : Int := Text.spell 10 digits
    keepNumeral { n with exponent := some (if negative then -e else e) }
      (cs.dropWhile Char.isDigit)

def exponentSign : List Char → Bool × List Char
  | '+' :: cs => (false, cs)
  | '-' :: cs => (true, cs)
  | cs => (false, cs)

theorem exponent_mark {c : Char} (h : c = 'e' ∨ c = 'E') (cs : List Char) :
    exponent n (c :: cs) = exponentDigits n (exponentSign cs).1 (exponentSign cs).2 := by
  unfold exponent
  simp only
  rw [if_pos (by simpa using h)]
  rfl

theorem exponentSign_append (h : cs ≠ []) (rest : List Char) :
    exponentSign (cs ++ rest) = ((exponentSign cs).1, (exponentSign cs).2 ++ rest) := by
  cases cs with
  | nil => exact absurd rfl h
  | cons c cs =>
    rw [List.cons_append]
    by_cases hplus : c = '+'
    · subst hplus
      rfl
    · by_cases hminus : c = '-'
      · subst hminus
        rfl
      · simp [exponentSign, hplus, hminus]

theorem exponentDigits_append {negative : Bool} (hrest : EndsNumeral rest)
    (h : exponentDigits n negative cs = (t, some after)) :
    exponentDigits n negative (cs ++ rest) = (t, some (after ++ rest)) := by
  unfold exponentDigits at h ⊢
  rw [(takeWhile_isDigit_append hrest cs).1, (takeWhile_isDigit_append hrest cs).2]
  split at h
  · exact nomatch h
  · exact keepNumeral_append h

theorem exponent_of_end (hrest : EndsNumeral rest) : exponent n rest = keepNumeral n rest := by
  cases rest with
  | nil => rfl
  | cons c rest =>
    have hc := hrest c rfl
    unfold exponent
    simp only
    rw [if_neg (by simpa using ⟨hc.2.2.1, hc.2.2.2⟩)]

theorem exponent_append (hrest : EndsNumeral rest) (h : exponent n cs = (t, some after)) :
    exponent n (cs ++ rest) = (t, some (after ++ rest)) := by
  cases cs with
  | nil =>
    rw [List.nil_append, exponent_of_end hrest]
    exact keepNumeral_append h
  | cons c cs =>
    rw [List.cons_append]
    by_cases hc : c = 'e' ∨ c = 'E'
    · rw [exponent_mark hc] at h ⊢
      have hne : cs ≠ [] := by
        rintro rfl
        exact nomatch h
      rw [exponentSign_append hne]
      exact exponentDigits_append hrest h
    · unfold exponent at h ⊢
      simp only at h ⊢
      rw [if_neg (by simpa using hc)] at h ⊢
      exact keepNumeral_append h

theorem afterWhole_of_ne_dot (h : cs.head? ≠ some '.') : afterWhole n cs = exponent n cs := by
  cases cs with
  | nil => rfl
  | cons c cs =>
    have hc : c ≠ '.' := fun heq => h (congrArg some heq)
    simp [afterWhole, hc]

theorem afterWhole_append (hrest : EndsNumeral rest)
    (h : afterWhole n cs = (t, some after)) :
    afterWhole n (cs ++ rest) = (t, some (after ++ rest)) := by
  by_cases hdot : cs.head? = some '.'
  · obtain ⟨ds, rfl⟩ := List.head?_eq_some_iff.1 hdot
    rw [List.cons_append]
    simp only [afterWhole] at h ⊢
    rw [(takeWhile_isDigit_append hrest ds).1, (takeWhile_isDigit_append hrest ds).2]
    split at h
    · exact nomatch h
    · exact exponent_append hrest h
  · rw [afterWhole_of_ne_dot hdot] at h
    rw [afterWhole_of_ne_dot]
    · exact exponent_append hrest h
    · cases cs with
      | nil => exact fun heq => (hrest '.' heq).2.1 rfl
      | cons c cs => exact hdot

theorem unsignedNumeral_append {negative : Bool} (hrest : EndsNumeral rest)
    (h : unsignedNumeral negative cs = (t, some after)) :
    unsignedNumeral negative (cs ++ rest) = (t, some (after ++ rest)) := by
  unfold unsignedNumeral at h ⊢
  rw [(takeWhile_isDigit_append hrest cs).1, (takeWhile_isDigit_append hrest cs).2]
  split at h
  · exact nomatch h
  · exact nomatch h
  · next digits hempty hzero => exact afterWhole_append hrest h

def scanNumeral : List Char → Tree × Rest
  | '-' :: cs => unsignedNumeral true cs
  | cs => unsignedNumeral false cs

theorem scanNumeral_of_ne_minus {c : Char} (h : c ≠ '-') (cs : List Char) :
    scanNumeral (c :: cs) = unsignedNumeral false (c :: cs) := by
  simp [scanNumeral, h]

theorem scanNumeral_of_isDigit {c : Char} (h : c.isDigit) (cs : List Char) :
    scanNumeral (c :: cs) = unsignedNumeral false (c :: cs) := by
  apply scanNumeral_of_ne_minus
  rintro rfl
  exact absurd h (by decide)

theorem scanNumeral_append (hrest : EndsNumeral rest)
    (h : scanNumeral cs = (t, some after)) :
    scanNumeral (cs ++ rest) = (t, some (after ++ rest)) := by
  cases cs with
  | nil => exact nomatch h
  | cons c cs =>
    by_cases hc : c = '-'
    · subst hc
      exact unsignedNumeral_append hrest h
    · rw [scanNumeral_of_ne_minus hc] at h
      rw [List.cons_append, scanNumeral_of_ne_minus hc]
      exact unsignedNumeral_append hrest h

end Scribe.Json

namespace Scribe.Numeral

open Json

/-- How a numeral is spelled once its own text has been read. -/
def reread (n : Numeral) : Numeral :=
  match (scanNumeral (n.toText "+").toList).1 with
  | .number m => m
  | _ => n

def Legible (n : Numeral) : Prop :=
  ∃ after, scanNumeral (n.toText "+").toList = (.number n.reread, some after) ∧ dropSpace after = []

theorem legible_of_scan {n m : Numeral} {after : List Char}
    (h : scanNumeral (n.toText "+").toList = (.number m, some after))
    (hafter : dropSpace after = []) : n.Legible := by
  have hreread : n.reread = m := by
    unfold reread
    rw [h]
  exact ⟨after, hreread.symm ▸ h, hafter⟩

theorem toList_toText (n : Numeral) : ∃ d ds, d.isDigit = true
    ∧ (n.toText "+").toList = (if n.negative then ['-'] else []) ++ d :: ds := by
  obtain ⟨d, ds, hdigits, hdigit⟩ := exists_head_toDigits n.whole
  unfold toText
  simp only [String.toList_append, toList_paddedDigits_one, hdigits, List.append_assoc,
    List.cons_append]
  exact ⟨d, _, hdigit, by cases n.negative <;> rfl⟩

theorem toList_toText_ofInt {plus : String} (i : Int) : ((ofInt i).toText plus).toList =
    (if i < 0 then ['-'] else []) ++ Nat.toDigits 10 i.natAbs := by
  unfold toText ofInt
  simp only [String.toList_append, toList_paddedDigits_one, decide_eq_true_eq]
  split <;> simp

variable {tail : List Char}

theorem keepNumeral_snd (n : Numeral) (rest : List Char) : (keepNumeral n rest).2 = some rest := by
  unfold keepNumeral
  split <;> rfl

theorem skipBreak?_keepNumeral (n : Numeral) (rest : List Char) :
    (keepNumeral n rest).1.skipBreak? = none := by
  unfold keepNumeral
  split <;> rfl

theorem takeWhile_digits_append {digits : List Char} (hdigits : ∀ c ∈ digits, c.isDigit)
    (htail : ∀ c ∈ tail.head?, c.isDigit = false) :
    (digits ++ tail).takeWhile Char.isDigit = digits
      ∧ (digits ++ tail).dropWhile Char.isDigit = tail := by
  rw [List.takeWhile_append_of_pos hdigits, List.dropWhile_append_of_pos hdigits]
  cases tail with
  | nil => simp
  | cons c tail => simp [htail c rfl]

theorem takeWhile_toDigits_append (n : Nat) (htail : ∀ c ∈ tail.head?, c.isDigit = false) :
    (Nat.toDigits 10 n ++ tail).takeWhile Char.isDigit = Nat.toDigits 10 n
      ∧ (Nat.toDigits 10 n ++ tail).dropWhile Char.isDigit = tail :=
  takeWhile_digits_append
    (fun _ hc => Nat.isDigit_of_mem_toDigits (by decide) (by decide) hc) htail

theorem isDigit_paddedDigits (width n : Nat) : ∀ c ∈ (paddedDigits width n).toList, c.isDigit := by
  intro c hc
  simp only [paddedDigits, String.toList_ofList, List.mem_append] at hc
  rcases hc with hc | hc
  · rw [List.eq_of_mem_replicate hc]
    decide
  · exact Nat.isDigit_of_mem_toDigits (by decide) (by decide) hc

theorem paddedDigits_ne_nil (width n : Nat) : (paddedDigits width n).toList ≠ [] := by
  simp [paddedDigits]

def exponentText (plus : String) : Option Int → String
  | some e => (if e < 0 then "e-" else "e" ++ plus) ++ paddedDigits 1 e.natAbs
  | none => ""

theorem exists_exponent_text (n : Numeral) (e : Option Int) :
    ∃ m, Json.exponent n (exponentText "+" e).toList = keepNumeral m [] := by
  cases e with
  | none => exact ⟨n, rfl⟩
  | some e =>
    have hdigits := @takeWhile_digits_append [] _ (isDigit_paddedDigits 1 e.natAbs) nofun
    rw [List.append_nil] at hdigits
    have hsign (negative : Bool) :
        ∃ m, exponentDigits n negative (paddedDigits 1 e.natAbs).toList = keepNumeral m [] := by
      unfold exponentDigits
      rw [hdigits.1, hdigits.2]
      split
      · next h => exact absurd h (paddedDigits_ne_nil _ _)
      · exact ⟨_, rfl⟩
    unfold exponentText
    dsimp only
    rw [String.toList_append]
    split
    · rw [show "e-".toList = ['e', '-'] from rfl, List.cons_append, exponent_mark (.inl rfl),
        List.cons_append, List.nil_append, exponentSign]
      dsimp only
      exact hsign true
    · rw [show ("e" ++ "+").toList = ['e', '+'] from rfl, List.cons_append,
        exponent_mark (.inl rfl), List.cons_append, List.nil_append, exponentSign]
      dsimp only
      exact hsign false

theorem not_isDigit_exponentText (e : Option Int) :
    ∀ c ∈ (exponentText "+" e).toList.head?, c.isDigit = false := by
  intro c hc
  cases e with
  | none => exact nomatch hc
  | some e =>
    unfold exponentText at hc
    dsimp only at hc
    rw [String.toList_append] at hc
    split at hc <;> obtain rfl := Option.some.inj hc <;> decide

def fractionText : Option Fraction → String
  | some f => "." ++ paddedDigits f.count f.value
  | none => ""

theorem toText_eq (plus : String) (n : Numeral) : n.toText plus =
    (if n.negative then "-" else "") ++ paddedDigits 1 n.whole ++ fractionText n.fraction
      ++ exponentText plus n.exponent := by
  obtain ⟨negative, whole, fraction, exponent⟩ := n
  cases fraction <;> cases exponent <;> rfl

theorem exists_afterWhole_text (n : Numeral) (f : Option Fraction) (e : Option Int) :
    ∃ m, afterWhole n ((fractionText f).toList ++ (exponentText "+" e).toList) =
      keepNumeral m [] := by
  cases f with
  | none =>
    have hdot : (exponentText "+" e).toList.head? ≠ some '.' := by
      cases e with
      | none => exact nofun
      | some e =>
        unfold exponentText
        dsimp only
        rw [String.toList_append]
        split <;> exact fun h => absurd (Option.some.inj h) (by decide)
    obtain ⟨m, hm⟩ := exists_exponent_text n e
    exact ⟨m, (afterWhole_of_ne_dot hdot).trans hm⟩
  | some f =>
    have hdigits := takeWhile_digits_append (isDigit_paddedDigits f.count f.value)
      (not_isDigit_exponentText e)
    have hcons : (fractionText (some f)).toList ++ (exponentText "+" e).toList =
        '.' :: ((paddedDigits f.count f.value).toList ++ (exponentText "+" e).toList) := by
      rw [fractionText, String.toList_append]
      rfl
    rw [hcons, afterWhole, hdigits.1, hdigits.2]
    split
    · next h => exact absurd h (paddedDigits_ne_nil _ _)
    · exact exists_exponent_text _ e

theorem unsignedNumeral_whole (negative : Bool) (n : Nat)
    (htail : ∀ c ∈ tail.head?, c.isDigit = false) :
    unsignedNumeral negative (Nat.toDigits 10 n ++ tail) =
      afterWhole { negative, whole := n } tail := by
  have hdigits := takeWhile_toDigits_append n htail
  unfold unsignedNumeral
  rw [hdigits.1, hdigits.2]
  split
  · next h => exact absurd h Nat.toDigits_ne_nil
  · next c cs h =>
    rcases Nat.eq_zero_or_pos n with rfl | hpos
    · exact nomatch h
    · exact absurd (congrArg List.head? h) (head?_toDigits hpos)
  · rw [spell_toDigits]

/-- What the text of a numeral is read as: a numeral, or a flaw where it is out of range. -/
def scanned (n : Numeral) : Tree := (scanNumeral (n.toText "+").toList).1

theorem exists_scanNumeral_text (n : Numeral) :
    ∃ m, scanNumeral (n.toText "+").toList = keepNumeral m [] := by
  let tail := (fractionText n.fraction).toList ++ (exponentText "+" n.exponent).toList
  have htail : ∀ c ∈ tail.head?, c.isDigit = false := by
    intro c hc
    cases hf : n.fraction with
    | none =>
      exact not_isDigit_exponentText n.exponent c (by simpa [tail, hf, fractionText] using hc)
    | some f =>
      simp only [tail, hf, fractionText, String.toList_append] at hc
      obtain rfl := Option.some.inj hc
      decide
  have hunsigned (negative : Bool) :
      ∃ m, unsignedNumeral negative (Nat.toDigits 10 n.whole ++ tail) = keepNumeral m [] := by
    rw [unsignedNumeral_whole negative n.whole htail]
    exact exists_afterWhole_text _ n.fraction n.exponent
  obtain ⟨d, ds, hdigits, hdigit⟩ := exists_head_toDigits n.whole
  rw [toText_eq]
  simp only [String.toList_append, toList_paddedDigits_one, List.append_assoc]
  rw [show (fractionText n.fraction).toList ++ (exponentText "+" n.exponent).toList = tail from rfl]
  cases n.negative with
  | true => exact hunsigned true
  | false =>
    have hscan : scanNumeral (Nat.toDigits 10 n.whole ++ tail) =
        unsignedNumeral false (Nat.toDigits 10 n.whole ++ tail) := by
      rw [hdigits, List.cons_append, scanNumeral_of_isDigit hdigit]
    obtain ⟨m, hm⟩ := hunsigned false
    exact ⟨m, hscan.trans hm⟩

theorem scanNumeral_toText (n : Numeral) :
    scanNumeral (n.toText "+").toList = (n.scanned, some []) := by
  obtain ⟨m, hm⟩ := n.exists_scanNumeral_text
  exact Prod.ext rfl (hm ▸ keepNumeral_snd m [])

theorem skipBreak?_scanned (n : Numeral) : n.scanned.skipBreak? = none := by
  obtain ⟨m, hm⟩ := n.exists_scanNumeral_text
  exact (congrArg (·.1.skipBreak?) hm).trans (skipBreak?_keepNumeral m [])

theorem unsignedNumeral_toDigits (negative : Bool) (n : Nat) :
    unsignedNumeral negative (Nat.toDigits 10 n) = keepNumeral { negative, whole := n } [] := by
  have hwhole := @unsignedNumeral_whole [] negative n nofun
  rw [List.append_nil] at hwhole
  exact hwhole

theorem reread_ofInt {i : Int} (h : i.natAbs < UInt64.size) :
    (ofInt i).reread = ofInt i ∧ (ofInt i).Legible := by
  have hscan : scanNumeral ((ofInt i).toText "+").toList = (.number (ofInt i), some []) := by
    have hkeep : keepNumeral (ofInt i) [] = (.number (ofInt i), some []) := by
      unfold keepNumeral
      rw [if_pos (isSome_toBinary64?_ofInt h)]
    rw [toList_toText_ofInt]
    split
    · next hneg =>
      rw [List.cons_append, List.nil_append, scanNumeral, unsignedNumeral_toDigits, ← hkeep]
      simp [ofInt, hneg]
    · next hpos =>
      obtain ⟨d, ds, hdigits, hdigit⟩ := exists_head_toDigits i.natAbs
      rw [List.nil_append, hdigits, scanNumeral_of_isDigit hdigit, ← hdigits,
        unsignedNumeral_toDigits, ← hkeep]
      simp [ofInt, hpos]
  refine ⟨?_, legible_of_scan hscan rfl⟩
  unfold reread
  rw [hscan]

end Scribe.Numeral
