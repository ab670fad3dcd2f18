import Scribe.Proofs.Java.File
import Scribe.Proofs.Java.Quote
import Scribe.Proofs.Json.Lexeme
import Scribe.Proofs.Layout.Line

/-!
Literals can be told apart by their text. What is written for arrays, booleans, whole numbers, texts
and null needs no look at the session, its first character shows of which kind a literal is, and
where one ends nothing that may follow could belong to it.
-/
namespace Scribe

/-- A value made of arrays, booleans, whole numbers, texts and null, of at most `n` levels. -/
inductive Value.Literal : (n : Nat) → Value → Prop
  | array {items : List Value} (h : ∀ v ∈ items, Literal n v) : Literal (n + 1) (.array items)
  | boolean (b : Bool) : Literal (n + 1) (.boolean b)
  | int (i : Int64) : Literal (n + 1) (.number (.int i))
  | long (i : Int64) : Literal (n + 1) (.number (.long i))
  | text (s : String) : Literal (n + 1) (.text s)
  | null : Literal (n + 1) .null

theorem Value.Literal.mono {v : Value} (h : v.Literal n) {m : Nat} (hle : n ≤ m) : v.Literal m := by
  induction h generalizing m with
  | array _ ih =>
    cases m with
    | zero => exact absurd hle (Nat.not_succ_le_zero _)
    | succ m => exact .array fun v hv => ih v hv (Nat.le_of_succ_le_succ hle)
  | _ =>
    cases m with
    | zero => exact absurd hle (Nat.not_succ_le_zero _)
    | succ m => constructor

namespace Java

open Script

mutual

def literalText : Value → String
  | .array items => "\x7b" ++ ", ".intercalate (literalTexts items) ++ "\x7d"
  | .boolean b => if b then "true" else "false"
  | .number x => numberLiteral x
  | .text s => quote s
  | .null => "null"
  | .enumConstant .. | .reference _ | .invocation .. | .anonymous _ => ""

def literalTexts : List Value → List String
  | [] => []
  | v :: vs => literalText v :: literalTexts vs

end

theorem literalTexts_eq_map (vs : List Value) : literalTexts vs = vs.map literalText := by
  induction vs with
  | nil => rfl
  | cons v vs ih => rw [literalTexts, ih, List.map_cons]

section

variable {n : Nat} {v w : Value} {r s : List Char}

def isIntegerChar (c : Char) : Bool := c = '-' || c.isDigit

def leadKind? (c : Char) : Option Kind :=
  if isIntegerChar c then some .numberValue
  else if c = '\x7b' then some .arrayValue
  else if c = 't' ∨ c = 'f' then some .booleanValue
  else if c = '"' then some .textValue
  else if c = 'n' then some .nullValue
  else none

/-- Text that may follow a literal: none, or text that begins after it or closes an array. -/
def FollowsItem (r : List Char) : Prop := ∀ c ∈ r.head?, c = ',' ∨ c = '\x7d'

/-! Whole numbers. -/

theorem toList_integerText (i : Int64) : (integerText i).toList =
    (if i.toInt < 0 then ['-'] else []) ++ Nat.toDigits 10 i.toInt.natAbs :=
  Numeral.toList_toText_ofInt i.toInt

theorem forall_isIntegerChar (i : Int64) : ∀ c ∈ (integerText i).toList, isIntegerChar c := by
  intro c hc
  rw [toList_integerText] at hc
  rcases List.mem_append.1 hc with hc | hc
  · split at hc
    · rw [List.mem_singleton.1 hc]
      decide
    · exact nomatch hc
  · have hdigit := Nat.isDigit_of_mem_toDigits (by decide) (by decide) hc
    simp [isIntegerChar, hdigit]

theorem toDigits_injective {n m : Nat} (h : Nat.toDigits 10 n = Nat.toDigits 10 m) : n = m := by
  rw [← spell_toDigits n, h, spell_toDigits]

theorem integerText_injective {i j : Int64} (h : (integerText i).toList = (integerText j).toList) :
    i = j := by
  have hdigit (n : Nat) (cs : List Char) : Nat.toDigits 10 n ≠ '-' :: cs := by
    obtain ⟨d, ds, hdigits, hd⟩ := exists_head_toDigits n
    rw [hdigits]
    rintro hcons
    obtain ⟨rfl, -⟩ := List.cons.inj hcons
    exact absurd hd (by decide)
  rw [toList_integerText, toList_integerText] at h
  refine Int64.toInt_inj.1 ?_
  split at h <;> split at h
  · have habs := toDigits_injective (List.append_cancel_left h)
    omega
  · exact absurd h.symm (hdigit _ _)
  · exact absurd h (hdigit _ _)
  · have habs := toDigits_injective h
    omega

theorem integerText_unique {i j : Int64} (hr : ∀ c ∈ r.head?, isIntegerChar c = false)
    (hs : ∀ c ∈ s.head?, isIntegerChar c = false)
    (h : (integerText i).toList ++ r = (integerText j).toList ++ s) : i = j ∧ r = s := by
  have htake {cs rest : List Char} (hcs : ∀ c ∈ cs, isIntegerChar c)
      (hrest : ∀ c ∈ rest.head?, isIntegerChar c = false) :
      (cs ++ rest).takeWhile isIntegerChar = cs := by
    rw [List.takeWhile_append_of_pos hcs]
    cases rest with
    | nil => simp
    | cons c rest => simp [hrest c rfl]
  have hdigits := htake (forall_isIntegerChar i) hr
  rw [h, htake (forall_isIntegerChar j) hs] at hdigits
  obtain rfl := integerText_injective hdigits.symm
  exact ⟨rfl, List.append_cancel_left h⟩

theorem FollowsItem.not_isIntegerChar (h : FollowsItem r) :
    ∀ c ∈ r.head?, isIntegerChar c = false := by
  intro c hc
  rcases h c hc with rfl | rfl <;> decide

/-! Literals. -/

theorem bind_leadKind? (hv : v.Literal n) :
    (literalText v).toList.head?.bind leadKind? = some v.kind := by
  have hinteger (i : Int64) (rest : List Char) :
      ((integerText i).toList ++ rest).head?.bind leadKind? = some .numberValue := by
    have hchars := forall_isIntegerChar i
    cases htext : (integerText i).toList with
    | nil => simp [toList_integerText] at htext
    | cons c cs =>
      rw [htext] at hchars
      simp [leadKind?, hchars c]
  cases hv with
  | array hitems =>
    rw [literalText, String.append_assoc, String.toList_append]
    rfl
  | boolean b => cases b <;> rfl
  | int i =>
    rw [literalText, numberLiteral, ← List.append_nil (integerText i).toList]
    exact hinteger i []
  | long i =>
    rw [literalText, numberLiteral, String.toList_append]
    exact hinteger i _
  | text s =>
    rw [literalText, toList_quote]
    rfl
  | null => rfl

theorem kind_eq_of_text (hv : v.Literal n) (hw : w.Literal n)
    (h : (literalText v).toList ++ r = (literalText w).toList ++ s) : v.kind = w.kind := by
  have hlead {v : Value} (hv : v.Literal n) (r : List Char) :
      ((literalText v).toList ++ r).head?.bind leadKind? = some v.kind := by
    rw [← bind_leadKind? hv]
    cases htext : (literalText v).toList with
    | nil => simpa [htext] using bind_leadKind? hv
    | cons c cs => rfl
  have hkind := hlead hv r
  rw [h, hlead hw s] at hkind
  exact (Option.some.inj hkind).symm

def laterText (vs : List Value) : String := String.join (vs.map (", " ++ literalText ·))

theorem intercalate_literalTexts (v : Value) (vs : List Value) :
    ", ".intercalate (literalTexts (v :: vs)) = literalText v ++ laterText vs := by
  rw [literalTexts, Text.intercalate_cons, literalTexts_eq_map, List.map_map]
  rfl

theorem toList_laterText_cons (v : Value) (vs : List Value) :
    (laterText (v :: vs)).toList = ',' :: ' ' :: ((literalText v).toList ++ (laterText vs).toList) := by
  simp [laterText]

theorem followsItem_later (vs : List Value) (r : List Char) :
    FollowsItem ((laterText vs).toList ++ '\x7d' :: r) := by
  cases vs with
  | nil => exact fun c hc => .inr (Option.some.inj hc).symm
  | cons v vs =>
    rw [toList_laterText_cons]
    exact fun c hc => .inl (Option.some.inj hc).symm

/-- Literals of at most `n` levels end where nothing that may follow belongs to them. -/
def Unique (n : Nat) : Prop :=
  ∀ {v w : Value} {r s : List Char}, v.Literal n → w.Literal n → FollowsItem r → FollowsItem s →
    (literalText v).toList ++ r = (literalText w).toList ++ s → v = w ∧ r = s

theorem laterText_unique (hunique : Unique n) {vs ws : List Value} (hvs : ∀ v ∈ vs, v.Literal n)
    (hws : ∀ w ∈ ws, w.Literal n)
    (h : (laterText vs).toList ++ '\x7d' :: r = (laterText ws).toList ++ '\x7d' :: s) :
    vs = ws ∧ r = s := by
  have hcomma (u : Value) (us : List Value) (r s : List Char) :
      '\x7d' :: r ≠ (laterText (u :: us)).toList ++ s := by
    rw [toList_laterText_cons]
    exact fun hcons => absurd (List.cons.inj hcons).1 (by decide)
  induction vs generalizing ws with
  | nil =>
    cases ws with
    | nil => exact ⟨rfl, (List.cons.inj h).2⟩
    | cons w ws => exact absurd h (hcomma w ws r _)
  | cons v vs ih =>
    cases ws with
    | nil => exact absurd h.symm (hcomma v vs s _)
    | cons w ws =>
      obtain ⟨hv, hvs'⟩ := List.forall_mem_cons.1 hvs
      obtain ⟨hw, hws'⟩ := List.forall_mem_cons.1 hws
      simp only [toList_laterText_cons, List.cons_append, List.append_assoc, List.cons.injEq,
        true_and] at h
      obtain ⟨rfl, hlater⟩ := hunique hv hw (followsItem_later vs r) (followsItem_later ws s) h
      obtain ⟨rfl, hrest⟩ := ih hvs' hws' hlater
      exact ⟨rfl, hrest⟩

theorem items_unique (hunique : Unique n) {vs ws : List Value} (hvs : ∀ v ∈ vs, v.Literal n)
    (hws : ∀ w ∈ ws, w.Literal n)
    (h : (", ".intercalate (literalTexts vs)).toList ++ '\x7d' :: r =
      (", ".intercalate (literalTexts ws)).toList ++ '\x7d' :: s) : vs = ws ∧ r = s := by
  have hsome {v : Value} {vs : List Value} {r s : List Char} (hv : v.Literal n) :
      '\x7d' :: r ≠ (", ".intercalate (literalTexts (v :: vs))).toList ++ s := by
    have hkind := bind_leadKind? hv
    rw [intercalate_literalTexts, String.toList_append, List.append_assoc]
    cases htext : (literalText v).toList with
    | nil => simp [htext] at hkind
    | cons c cs =>
      rintro hcons
      obtain ⟨rfl, -⟩ := List.cons.inj hcons
      rw [htext] at hkind
      exact nomatch hkind
  cases vs with
  | nil =>
    cases ws with
    | nil => exact ⟨rfl, (List.cons.inj h).2⟩
    | cons w ws => exact absurd h (hsome (hws w List.mem_cons_self))
  | cons v vs =>
    cases ws with
    | nil => exact absurd h.symm (hsome (hvs v List.mem_cons_self))
    | cons w ws =>
      obtain ⟨hv, hvs'⟩ := List.forall_mem_cons.1 hvs
      obtain ⟨hw, hws'⟩ := List.forall_mem_cons.1 hws
      simp only [intercalate_literalTexts, String.toList_append, List.append_assoc] at h
      obtain ⟨rfl, hlater⟩ := hunique hv hw (followsItem_later vs r) (followsItem_later ws s) h
      obtain ⟨rfl, hrest⟩ := laterText_unique hunique hvs' hws' hlater
      exact ⟨rfl, hrest⟩

/-- Only the mark after a long number tells it from an int. -/
theorem number_unique {x y : Number} (hx : Value.Literal n (.number x))
    (hy : Value.Literal n (.number y)) (hr : FollowsItem r) (hs : FollowsItem s)
    (h : (numberLiteral x).toList ++ r = (numberLiteral y).toList ++ s) : x = y ∧ r = s := by
  have hmark {r : List Char} : ∀ c ∈ ('L' :: r).head?, isIntegerChar c = false := by
    rintro c hc
    rw [← Option.some.inj hc]
    decide
  have hfollow {r s : List Char} (hr : FollowsItem r) : r ≠ 'L' :: s := by
    rintro rfl
    exact absurd (hr 'L' rfl) (by decide)
  have hlong (i : Int64) (r : List Char) :
      (numberLiteral (.long i)).toList ++ r = (integerText i).toList ++ 'L' :: r := by
    rw [numberLiteral, String.toList_append, List.append_assoc]
    rfl
  cases hx with
  | int i =>
    cases hy with
    | int j =>
      obtain ⟨rfl, hrest⟩ := integerText_unique hr.not_isIntegerChar hs.not_isIntegerChar h
      exact ⟨rfl, hrest⟩
    | long j =>
      rw [hlong] at h
      exact absurd (integerText_unique hr.not_isIntegerChar hmark h).2 (hfollow hr)
  | long i =>
    rw [hlong] at h
    cases hy with
    | int j => exact absurd (integerText_unique hmark hs.not_isIntegerChar h).2.symm (hfollow hs)
    | long j =>
      rw [hlong] at h
      obtain ⟨rfl, hrest⟩ := integerText_unique hmark hmark h
      exact ⟨rfl, (List.cons.inj hrest).2⟩

theorem literal_unique (n : Nat) : Unique n := by
  -- By the depth of arrays. What a literal begins with tells its kind, and what follows it where it
  -- ends.
  induction n with
  | zero => exact fun hv => nomatch hv
  | succ n ih =>
    intro v w r s hv hw hr hs h
    have hkind := kind_eq_of_text hv hw h
    cases v with
    | array vs =>
      cases w with
      | array ws =>
        cases hv with
        | array hvs =>
        cases hw with
        | array hws =>
          simp only [literalText, String.toList_append, List.append_assoc] at h
          obtain ⟨rfl, hrest⟩ := items_unique ih hvs hws (List.append_cancel_left h)
          exact ⟨rfl, hrest⟩
      | _ => exact nomatch hkind
    | boolean b =>
      cases w with
      | boolean b' =>
        cases b <;> cases b' <;> first | exact ⟨rfl, List.append_cancel_left h⟩ | exact nomatch h
      | _ => exact nomatch hkind
    | number x =>
      cases w with
      | number y =>
        obtain ⟨rfl, hrest⟩ := number_unique hv hw hr hs h
        exact ⟨rfl, hrest⟩
      | _ => exact nomatch hkind
    | text t =>
      cases w with
      | text t' =>
        have hlex := congrArg lex h
        rw [literalText, literalText, lex_quote_append, lex_quote_append] at hlex
        obtain ⟨rfl, rfl⟩ := Prod.mk.inj (Option.some.inj hlex)
        exact ⟨rfl, rfl⟩
      | _ => exact nomatch hkind
    | null =>
      cases w with
      | null => exact ⟨rfl, List.append_cancel_left h⟩
      | _ => exact nomatch hkind
    | _ => exact nomatch hv

theorem literalText_injective {m : Nat} (hv : v.Literal n) (hw : w.Literal m)
    (h : literalText v = literalText w) : v = w := by
  have hfollow : FollowsItem [] := nofun
  exact (literal_unique (max n m) (hv.mono (le_max_left n m)) (hw.mono (le_max_right n m)) hfollow
    hfollow (by rw [h])).1

theorem commaList_injective {m : Nat} {vs ws : List Value} (hvs : ∀ v ∈ vs, v.Literal n)
    (hws : ∀ w ∈ ws, w.Literal m)
    (h : ", ".intercalate (literalTexts vs) = ", ".intercalate (literalTexts ws)) : vs = ws :=
  (items_unique (r := []) (literal_unique (max n m)) (fun v hv => (hvs v hv).mono (le_max_left n m))
    (fun w hw => (hws w hw).mono (le_max_right n m)) (by rw [h])).1

end

/-! Rendering. -/

section

variable {f : Format} {remaining : Nat} {stack : Stack} {d : Dependencies}

theorem run_argumentList {c : Children} {n : Node} {slot : Slot} {vs : List Value}
    (h : ∀ v ∈ vs, ∀ place, (text? ⟨.value v, place⟩).run c d = (some (literalText v), d)) :
    (argumentList n slot vs).run c d = (", ".intercalate (literalTexts vs), d) := by
  have htexts : (texts (n.parts slot (vs.map .value))).run c d = (literalTexts vs, d) := by
    rw [run_texts_of_fixed fun m hm => ?fixed, filterMap_parts fun v hv place =>
      congrArg Prod.fst (h v hv place), List.filterMap_eq_map', literalTexts_eq_map]
    case fixed =>
      obtain ⟨v, hv, place, rfl⟩ := mem_parts hm
      exact congrArg Prod.snd (h v hv place)
  unfold argumentList commaList
  rw [run_monadBind, htexts]
  rfl

theorem run_literal {v : Value} (hv : v.Literal remaining) (place : Place) :
    (text? ⟨.value v, place⟩).run ((dispatcher f).children remaining stack) d =
      (some (literalText v), d) := by
  induction hv generalizing stack place with
  | @array remaining items hitems ih =>
    have hscript (n : Node) : (renderValue f n (.array items)).run = do
        return some ("\x7b" ++ (← argumentList n .values items) ++ "\x7d") := by
      simp [renderValue]
    rw [run_text?_succ]
    change (renderValue f _ (.array items)).run.run _ d = _
    rw [hscript, run_monadBind, run_argumentList fun v hv place => ih v hv place]
    rfl
  | boolean b => cases b <;> rfl
  | _ => rfl

end

section

variable {f f' : Format} {remaining remaining' : Nat} {stack stack' : Stack} {d d' : Dependencies}

/-- Literals come to the same text only if they are the same literal, and lists of literals come to
the same text between commas only if they are the same list: whatever the formats, the nodes around
them and what has been rendered before, as long as the depth lets them be written in full. -/
theorem literals_readable :
    (∀ v w : Value, v.Literal remaining → w.Literal remaining' → ∀ place place' : Place,
      (((dispatcher f).children remaining stack).first ⟨.value v, place⟩ d).1.map (·.text) =
        (((dispatcher f').children remaining' stack').first ⟨.value w, place'⟩ d').1.map (·.text)
      ↔ v = w)
    ∧ (∀ vs ws : List Value, (∀ v ∈ vs, v.Literal remaining) → (∀ w ∈ ws, w.Literal remaining') →
      ∀ (n n' : Node) (slot slot' : Slot),
        ((argumentList n slot vs).run ((dispatcher f).children remaining stack) d).1 =
          ((argumentList n' slot' ws).run ((dispatcher f').children remaining' stack') d').1
        ↔ vs = ws) := by
  refine ⟨fun v w hv hw place place' => ?value, fun vs ws hvs hws n n' slot slot' => ?list⟩
  case value =>
    change ((text? ⟨.value v, place⟩).run ((dispatcher f).children remaining stack) d).1 =
      ((text? ⟨.value w, place'⟩).run ((dispatcher f').children remaining' stack') d').1 ↔ v = w
    rw [run_literal hv, run_literal hw]
    refine ⟨fun h => literalText_injective hv hw (Option.some.inj h), ?_⟩
    rintro rfl
    rfl
  case list =>
    rw [run_argumentList fun v hv place => run_literal (hvs v hv) place,
      run_argumentList fun w hw place => run_literal (hws w hw) place]
    refine ⟨commaList_injective hvs hws, ?_⟩
    rintro rfl
    rfl

end

theorem literals_readable_pair :
    let pair : List Value := [.text "a", .array [.number (.long 5)]]
    let single : List Value := [.text "a\", \x7b5L\x7d"]
    let render (v : Value) := (((dispatcher {}).children 3 {}).first ⟨.value v, []⟩ {}).1.map (·.text)
    let arguments (vs : List Value) :=
      ((argumentList ⟨.value .null, []⟩ .arguments vs).run ((dispatcher {}).children 2 {}) {}).1
    ((Value.array pair).Literal 3 ∧ (Value.array single).Literal 3)
      ∧ ((∀ v ∈ pair, v.Literal 2) ∧ ∀ v ∈ single, v.Literal 2)
      ∧ render (.array pair) ≠ render (.array single) ∧ arguments pair ≠ arguments single
      ∧ arguments pair = "\"a\", \x7b5L\x7d" ∧ arguments single = "\"a\\\", \x7b5L\x7d\"" := by
  intro pair single render arguments
  have hpair : ∀ v ∈ pair, v.Literal 2 := by
    simpa [pair] using ⟨Value.Literal.text "a", Value.Literal.array (by simpa using .long 5)⟩
  have hsingle : ∀ v ∈ single, v.Literal 2 := by
    simpa [single] using Value.Literal.text _
  have hne : pair ≠ single := fun h => nomatch congrArg List.length h
  refine ⟨⟨.array hpair, .array hsingle⟩, ⟨hpair, hsingle⟩, ?_, ?_, by decide +kernel,
    by decide +kernel⟩
  · exact fun h => hne (Value.array.inj
      ((literals_readable.1 _ _ (.array hpair) (.array hsingle) [] []).1 h))
  · exact fun h => hne ((literals_readable.2 _ _ hpair hsingle _ _ _ _).1 h)

end Java

end Scribe
