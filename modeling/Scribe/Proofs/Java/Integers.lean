import Mathlib.Algebra.Group.Int.Defs
import Scribe.Proofs.Java.Readable
import Scribe.Proofs.Java.Written

/-!
Integer literals. They are read back as the numbers that they are written for, and the mark tells
the long ones. But a number has 64 bits whichever of the two it is, and nothing looks whether an int
of Java has room for it.
-/
namespace Scribe

structure IntegerLiteral where
  value : Int
  /-- Whether the mark of a long stands after the digits. -/
  long : Bool
deriving DecidableEq, Repr

namespace IntegerLiteral

open Numeral (exponentText fractionText takeWhile_toDigits_append toText_eq)

/-- An int has 32 bits and a long has 64, one of them for the sign. -/
def bound (l : IntegerLiteral) : Int := if l.long then 2 ^ 63 else 2 ^ 31

def InRange (l : IntegerLiteral) : Prop := -l.bound ≤ l.value ∧ l.value < l.bound

def ofMark? (value : Int) : List Char → Option IntegerLiteral
  | [] => some ⟨value, false⟩
  | ['L'] => some ⟨value, true⟩
  | _ => none

/-- Reads decimal digits. More than one do not begin with a zero, for then they would be octal. -/
def ofDigits? (negative : Bool) (cs : List Char) : Option IntegerLiteral :=
  let digits := cs.takeWhile Char.isDigit
  if digits = [] ∨ 1 < digits.length ∧ digits.head? = some '0' then none
  else
    let value := Text.spell 10 digits
    ofMark? (if negative then -value else value) (cs.dropWhile Char.isDigit)

/-- The integer literal that a text is. -/
def read? (text : String) : Option IntegerLiteral :=
  match text.toList with
  | '-' :: cs => ofDigits? true cs
  | cs => ofDigits? false cs

/-! What is written is read. -/

variable {text : String} {tail : List Char}

theorem ofDigits?_append (negative : Bool) (n : Nat) (htail : ∀ c ∈ tail.head?, c.isDigit = false) :
    ofDigits? negative (Nat.toDigits 10 n ++ tail) = ofMark? (if negative then -n else n) tail := by
  obtain ⟨htake, hdrop⟩ := takeWhile_toDigits_append n htail
  have hzero : ¬ (1 < (Nat.toDigits 10 n).length ∧ (Nat.toDigits 10 n).head? = some '0') := by
    rintro ⟨hlength, hhead⟩
    rcases Nat.eq_zero_or_pos n with rfl | hpos
    · exact absurd hlength (by decide)
    · exact head?_toDigits hpos hhead
  unfold ofDigits?
  dsimp only
  rw [htake, hdrop, if_neg (not_or.2 ⟨Nat.toDigits_ne_nil, hzero⟩), spell_toDigits]

theorem read?_eq {negative : Bool} {n : Nat}
    (htext : text.toList = (if negative then ['-'] else []) ++ (Nat.toDigits 10 n ++ tail))
    (htail : ∀ c ∈ tail.head?, c.isDigit = false) :
    read? text = ofMark? (if negative then -n else n) tail := by
  unfold read?
  rw [htext]
  cases negative with
  | true => exact ofDigits?_append true n htail
  | false =>
    obtain ⟨d, ds, hdigits, hdigit⟩ := exists_head_toDigits n
    rw [← ofDigits?_append false n htail]
    change (match Nat.toDigits 10 n ++ tail with | '-' :: cs => _ | cs => _) = _
    split
    · next hcons =>
      rw [hdigits] at hcons
      obtain ⟨rfl, -⟩ := List.cons.inj hcons
      exact absurd hdigit (by decide)
    · rfl

theorem read?_integerText (i : Int64) (mark : String)
    (hmark : ∀ c ∈ mark.toList.head?, c.isDigit = false) :
    read? (Java.integerText i ++ mark) = ofMark? i.toInt mark.toList := by
  have htext : (Java.integerText i ++ mark).toList =
      (if decide (i.toInt < 0) then ['-'] else [])
        ++ (Nat.toDigits 10 i.toInt.natAbs ++ mark.toList) := by
    rw [String.toList_append, Java.toList_integerText, List.append_assoc]
    simp only [decide_eq_true_eq]
  rw [read?_eq htext hmark]
  exact congrArg (ofMark? · mark.toList) (Numeral.integer_ofInt i.toInt)

/-- A numeral that is no integer has a point or an exponent after its first digits. -/
theorem exists_tail {n : Numeral} (h : n.isInteger = false) :
    ∃ c cs, (fractionText n.fraction ++ exponentText "" n.exponent).toList = c :: cs
      ∧ (c = '.' ∨ c = 'e') := by
  obtain ⟨negative, whole, fraction, exponent⟩ := n
  cases fraction with
  | some f =>
    rw [fractionText, String.append_assoc, String.toList_append]
    exact ⟨'.', _, rfl, .inl rfl⟩
  | none =>
    cases exponent with
    | none => exact absurd h.symm Bool.false_ne_true
    | some e =>
      rw [fractionText, String.empty_append, exponentText, String.toList_append]
      refine ⟨'e', (if e < 0 then ['-'] else []) ++ (paddedDigits 1 e.natAbs).toList, ?_, .inr rfl⟩
      split <;> rfl

theorem read?_toText {n : Numeral} (h : n.isInteger = false) (mark : String) :
    read? (n.toText "" ++ mark) = none := by
  obtain ⟨c, cs, htail, hc⟩ := exists_tail h
  have htext : (n.toText "" ++ mark).toList = (if n.negative then ['-'] else [])
      ++ (Nat.toDigits 10 n.whole ++ (c :: cs ++ mark.toList)) := by
    rw [toText_eq, ← htail]
    cases n.negative <;> simp [toList_paddedDigits_one]
  rw [read?_eq htext]
  · rcases hc with rfl | rfl <;> rfl
  · intro d hd
    obtain rfl := Option.some.inj hd
    rcases hc with rfl | rfl <;> decide

end IntegerLiteral

/-! Numbers. -/

theorem NumeralStyle.isInteger_write (style : NumeralStyle) (negative : Bool) (digits count : Nat)
    (position : Int) : (style.write negative digits count position).isInteger = false := by
  unfold write
  split
  · exact Bool.and_false _
  · split
    · rfl
    · split <;> rfl

theorem Binary.isInteger_toNumeral {l : Layout} (style : NumeralStyle) (tie : TieBreak)
    (x : Binary l) : (x.toNumeral style tie).isInteger = false := by
  unfold toNumeral
  split
  · rfl
  · exact style.isInteger_write _ _ _ _

def Number.integer? : Number → Option IntegerLiteral
  | int i => some ⟨i.toInt, false⟩
  | long i => some ⟨i.toInt, true⟩
  | float _ | double _ => none

/-- Java's long has room for every long number, but Java's int not for every int. -/
theorem Number.not_inRange_iff {x : Number} {l : IntegerLiteral} (h : x.integer? = some l) :
    ¬ l.InRange ↔ ∃ i, x = int i ∧ ¬ (-2 ^ 31 ≤ i.toInt ∧ i.toInt < 2 ^ 31) := by
  cases x with
  | int i =>
    obtain rfl := Option.some.inj h
    refine ⟨fun hout => ⟨i, rfl, hout⟩, ?_⟩
    rintro ⟨j, hj, hout⟩
    obtain rfl := Number.int.inj hj
    exact hout
  | long i =>
    obtain rfl := Option.some.inj h
    exact iff_of_false (fun hout => hout ⟨i.le_toInt, i.toInt_lt⟩) nofun
  | float | double => exact nomatch h

namespace Java

variable {f : Format} {remaining : Nat} {stack : Stack} {all : Bool} {n : Node} {d : Dependencies}

theorem read?_numberLiteral (x : Number) : IntegerLiteral.read? (numberLiteral x) = x.integer? := by
  have hspecial {l : Layout} (wrapper : String) (x : Binary l)
      (h : wrapper = "Float" ∨ wrapper = "Double") :
      IntegerLiteral.read? (specialText wrapper x) = none := by
    rw [IntegerLiteral.read?, specialText, String.toList_append]
    rcases h with rfl | rfl <;> rfl
  cases x with
  | int i =>
    have hread := IntegerLiteral.read?_integerText i "" nofun
    rwa [String.append_empty] at hread
  | long i =>
    refine IntegerLiteral.read?_integerText i "L" fun c hc => ?_
    obtain rfl := Option.some.inj hc
    rfl
  | float x =>
    rw [numberLiteral]
    split
    · exact IntegerLiteral.read?_toText (x.isInteger_toNumeral _ _) "f"
    · exact hspecial _ x (.inl rfl)
  | double x =>
    rw [numberLiteral]
    split
    · have hread := IntegerLiteral.read?_toText (x.isInteger_toNumeral numeralStyle .up) ""
      rwa [String.append_empty] at hread
    · exact hspecial _ x (.inr rfl)

theorem text_of_mem_visits {v : Visit} {x : Number}
    (hv : v ∈ (dispatcher f).visits remaining stack all n d)
    (hx : v.node.item = .value (.number x)) : v.text = some (numberLiteral x) := by
  obtain ⟨_, _, ⟨item, place⟩, _, t, -, rfl⟩ := Binding.exists_ownVisit (b := binding) hv
  obtain rfl : item = .value (.number x) := hx
  rfl

end Java

/-! Literals out of range. -/

/-- An integer literal is written that is out of Java's range. -/
def Generator.Strays (g : Generator) (n : Node) : Prop :=
  ∃ v ∈ g.visits n, ∃ x text l, v.node.item = .value (.number x) ∧ v.text = some text
    ∧ IntegerLiteral.read? text = some l ∧ ¬ l.InRange

namespace Java

theorem strays_iff {maxDepth : Nat} :
    (binding.session d f maxDepth).Strays n ↔
      ∃ v ∈ (binding.session d f maxDepth).visits n, ∃ i,
        v.node.item = .value (.number (.int i)) ∧ ¬ (-2 ^ 31 ≤ i.toInt ∧ i.toInt < 2 ^ 31) := by
  constructor
  · rintro ⟨v, hv, x, text, l, hx, htext, hread, hout⟩
    obtain rfl := Option.some.inj (htext.symm.trans (text_of_mem_visits hv hx))
    rw [read?_numberLiteral] at hread
    obtain ⟨i, rfl, hi⟩ := (Number.not_inRange_iff hread).1 hout
    exact ⟨v, hv, i, hx, hi⟩
  · rintro ⟨v, hv, i, hx, hi⟩
    exact ⟨v, hv, _, _, _, hx, text_of_mem_visits hv hx, read?_numberLiteral _,
      (Number.not_inRange_iff rfl).2 ⟨i, rfl, hi⟩⟩

/-- Every number that is rendered stands in the model, and what is written for it is read back as
the same number, as a long just where it is one. And within a great enough limit a literal strays
from Java's range just if an int of more than 32 bits is written for a value. -/
theorem strays_iff_written (d : Dependencies) (f : Format) :
    (∀ maxDepth n, ∀ v ∈ (binding.session d f maxDepth).visits n, ∀ x,
      v.node.item = .value (.number x) → n.item.Within (.value (.number x))
        ∧ ∃ text, v.text = some text ∧ IntegerLiteral.read? text = x.integer?)
      ∧ ∀ v place, ∃ limit, ∀ maxDepth ≥ limit,
        ((binding.session d f maxDepth).Strays ⟨.value v, place⟩ ↔
          ∃ i, (Item.value v).Written none (.value (.number (.int i)))
            ∧ ¬ (-2 ^ 31 ≤ i.toInt ∧ i.toInt < 2 ^ 31)) := by
  refine ⟨fun maxDepth n v hv x hx => ⟨?within, _, text_of_mem_visits hv hx,
    read?_numberLiteral x⟩, fun v place => ⟨(Item.value v).rank + 1, fun maxDepth hlimit => ?stray⟩⟩
  case within =>
    rcases within_of_mem_visits hv with hwithin | himport
    · exact hx ▸ hwithin
    · have hkind : v.node.kind = .numberValue := congrArg Item.kind hx
      exact absurd (hkind.symm.trans himport) (by decide)
  case stray =>
    let n : Node := ⟨.value v, place⟩
    have hfile : n.kind ≠ .file := by cases v <;> nofun
    have hmarkup : n.kind.isMarkup = false := by cases v <;> rfl
    have henclosed : Enclosed {} n := fun hconstructor => by cases v <;> exact nomatch hconstructor
    have hvisit (k : Item) := exists_visit_iff (f := f) (d := d) hfile hmarkup henclosed hlimit k
    rw [strays_iff]
    constructor
    · rintro ⟨visit, hvisited, i, hitem, hout⟩
      exact ⟨i, (hvisit _).1 ⟨visit, hvisited, hitem⟩, hout⟩
    · rintro ⟨i, hwritten, hout⟩
      obtain ⟨visit, hvisited, hitem⟩ := (hvisit _).2 hwritten
      exact ⟨visit, hvisited, i, hitem, hout⟩

theorem strays_iff_written_sum :
    let v : Value := .array [.number (.long 2147483648),
      .invocation none "sum" [.number (.int 2147483648)]]
    v.validate = .ok ()
      ∧ ((binding.session {} {} 3).render ⟨.value v, []⟩).1 =
        some "\x7b2147483648L, sum(2147483648)\x7d"
      ∧ ∃ limit, ∀ maxDepth ≥ limit, (binding.session {} {} maxDepth).Strays ⟨.value v, []⟩ := by
  intro v
  have hwritten : (Item.value v).Written none (.value (.number (.int 2147483648))) :=
    .inside (m := .value (.invocation none "sum" [.number (.int 2147483648)]))
      (by simp [v, Item.slot]) (.inside (by simp [Item.slot]) (.self _ _))
  obtain ⟨limit, hstrays⟩ := (strays_iff_written {} {}).2 v []
  exact ⟨by decide +kernel, by decide +kernel, limit, fun maxDepth hlimit =>
    (hstrays maxDepth hlimit).2 ⟨2147483648, hwritten, by decide⟩⟩

end Java

end Scribe
