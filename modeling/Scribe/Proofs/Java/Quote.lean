import Scribe.Java.Literal
import Scribe.Text.Digit
import Mathlib.Algebra.Group.Nat.Even
import Mathlib.Data.List.Induction

/-!
String literals as a compiler takes them. Its first pass goes over the whole source and replaces
escapes by code point, `\u0041` and the like, before any literal is known; the literals are read
after that. What a quoted text is written as goes through the first pass as it is, and is read as
that text.
-/
namespace Scribe.Java

def unescape? : Char → Option Char
  | '"' => some '"'
  | '\\' => some '\\'
  | 'n' => some '\n'
  | 'r' => some '\r'
  | 't' => some '\t'
  | _ => none

/-- The text of a literal whose opening quote has been read, and what follows the literal. No line
break may stand in it. -/
def lexOpened : List Char → Option (List Char × List Char)
  | [] => none
  | '"' :: rest => some ([], rest)
  | '\\' :: c :: cs => do
    let c ← unescape? c
    (lexOpened cs).map fun (text, rest) => (c :: text, rest)
  | c :: cs =>
    if c = '\\' ∨ c = '\n' ∨ c = '\r' then none
    else (lexOpened cs).map fun (text, rest) => (c :: text, rest)

def lex : List Char → Option (String × List Char)
  | '"' :: cs => (lexOpened cs).map fun (text, rest) => (.ofList text, rest)
  | _ => none

/-- Whether an odd number of backslashes stands before a place, from what stands before the last
character before it. -/
def oddAfter (odd : Bool) (c : Char) : Bool := c = '\\' && !odd

/-- The first pass, as numbers of units: a backslash after an even number of others begins an escape
when a letter `u` follows, and the escape needs four hexadecimal digits after such letters. -/
def translate (odd : Bool) : List Char → Option (List Nat)
  | [] => some []
  | c :: cs =>
    if oddAfter odd c && cs.head? = some 'u' then
      let digits := (cs.dropWhile (· == 'u')).take 4
      if digits.length = 4 && digits.all Text.isHexDigit then
        (translate false ((cs.dropWhile (· == 'u')).drop 4)).map (Text.spell 16 digits :: ·)
      else none
    else (translate (oddAfter odd c) cs).map (c.toNat :: ·)
termination_by cs => cs.length
decreasing_by
  · have hle := (List.dropWhile_sublist (· == 'u') (l := cs)).length_le
    simp only [List.length_drop, List.length_cons]
    omega
  · simp

example : translate false "\\uu0041\\\\u0041".toList =
    some ([0x41] ++ "\\\\u0041".toList.map Char.toNat) := by decide +kernel

def trailingBackslashes (cs : List Char) : Nat := (cs.reverse.takeWhile (· == '\\')).length

/-! Letters after backslashes. -/

/-- No letter `u` stands right after an odd number of backslashes. -/
def calm : Bool → List Char → Bool
  | _, [] => true
  | odd, c :: cs => !(c = 'u' && odd) && calm (oddAfter odd c) cs

theorem calm_append (odd : Bool) (a b : List Char) :
    calm odd (a ++ b) = (calm odd a && calm (a.foldl oddAfter odd) b) := by
  induction a generalizing odd with
  | nil => rfl
  | cons c a ih => rw [List.cons_append, calm, calm, ih, List.foldl_cons, Bool.and_assoc]

theorem foldl_oddAfter (cs : List Char) :
    cs.foldl oddAfter false = decide (trailingBackslashes cs % 2 = 1) := by
  induction cs using List.reverseRecOn with
  | nil => rfl
  | append_singleton cs c ih =>
    rw [List.foldl_append, ih, List.foldl_cons, List.foldl_nil, oddAfter]
    unfold trailingBackslashes
    rw [List.reverse_append, List.reverse_singleton, List.singleton_append, List.takeWhile_cons]
    by_cases hc : c = '\\'
    · simp only [hc, beq_self_eq_true, decide_true, Bool.true_and, ↓reduceIte, List.length_cons]
      rw [← decide_not, decide_eq_decide]
      omega
    · simp [hc]

theorem even_of_calm {before after : List Char} (h : calm false (before ++ 'u' :: after)) :
    trailingBackslashes before % 2 = 0 := by
  rw [calm_append, foldl_oddAfter, calm] at h
  simp only [decide_true, Bool.true_and, Bool.and_eq_true, Bool.not_eq_eq_eq_not,
    Bool.not_true, decide_eq_false_iff_not] at h
  omega

/-- The first pass leaves a calm text alone, unless its last character is a backslash, which may
begin an escape with what follows. -/
theorem translate_of_calm {odd : Bool} {cs : List Char} (h : calm odd cs)
    (hlast : cs.getLast? ≠ some '\\') (rest : List Char) :
    translate odd (cs ++ rest) =
      (translate (cs.foldl oddAfter odd) rest).map (cs.map Char.toNat ++ ·) := by
  induction cs generalizing odd with
  | nil => simp
  | cons c cs ih =>
    rw [calm, Bool.and_eq_true] at h
    have hescape : (oddAfter odd c && decide ((cs ++ rest).head? = some 'u')) = false := by
      cases cs with
      | nil =>
        have hc : c ≠ '\\' := fun hc => hlast (by simp [hc])
        simp [oddAfter, hc]
      | cons next cs =>
        have hnext := h.2
        simp only [calm, Bool.and_eq_true] at hnext
        by_cases hu : next = 'u'
        · simpa [hu] using hnext.1
        · simp [hu]
    have hlast : cs.getLast? ≠ some '\\' := by
      cases cs with
      | nil => simp
      | cons next cs => simpa using hlast
    rw [List.cons_append, translate, hescape, ih h.2 hlast]
    simp [Option.map_map, Function.comp_def]

theorem calm_escapeChar (c : Char) (cs : List Char) :
    calm false (escapeChar c ++ cs) = calm false cs := by
  unfold escapeChar
  split
  case h_6 hslash _ _ _ =>
    have hslash : c ≠ '\\' := hslash
    simp [calm, oddAfter, hslash]
  all_goals rfl

theorem toList_quote (s : String) :
    (quote s).toList = '"' :: (s.toList.flatMap escapeChar ++ ['"']) := by
  rw [quote, String.toList_append, String.toList_append, Text.toList_substitute]
  rfl

theorem calm_quote (s : String) : calm false (quote s).toList := by
  rw [toList_quote]
  change calm false (s.toList.flatMap escapeChar ++ ['"'])
  induction s.toList with
  | nil => rfl
  | cons c cs ih => rwa [List.flatMap_cons, List.append_assoc, calm_escapeChar]

/-! Reading back. -/

theorem lexOpened_escapeChar (c : Char) (cs : List Char) :
    lexOpened (escapeChar c ++ cs) = (lexOpened cs).map fun (text, rest) => (c :: text, rest) := by
  unfold escapeChar
  split
  case h_6 hquote hslash hnewline hreturn _ =>
    rw [List.singleton_append, lexOpened]
    · exact if_neg fun h => h.elim hslash (·.elim hnewline hreturn)
    · exact hquote
    · exact fun _ _ h _ => hslash h
  all_goals rfl

theorem lexOpened_escapes (cs rest : List Char) :
    lexOpened (cs.flatMap escapeChar ++ '"' :: rest) = some (cs, rest) := by
  induction cs with
  | nil => rfl
  | cons c cs ih => rw [List.flatMap_cons, List.append_assoc, lexOpened_escapeChar, ih]; rfl

theorem lex_quote_append (s : String) (rest : List Char) :
    lex ((quote s).toList ++ rest) = some (s, rest) := by
  rw [toList_quote, List.cons_append, List.append_assoc, List.singleton_append, lex,
    lexOpened_escapes]
  simp

/-- A quoted text is read as that text, whatever follows it. A letter `u` in the literal stands after
an even number of backslashes, so that the first pass leaves the literal alone and goes on with what
follows. -/
theorem lex_quote (s : String) (rest : List Char) :
    lex ((quote s).toList ++ rest) = some (s, rest)
      ∧ (∀ before after, (quote s).toList = before ++ 'u' :: after →
          Even (trailingBackslashes before))
      ∧ translate false ((quote s).toList ++ rest) =
          (translate false rest).map ((quote s).toList.map Char.toNat ++ ·) := by
  refine ⟨lex_quote_append s rest, fun before after hsplit => ?even, ?pass⟩
  case even =>
    have hcalm := calm_quote s
    rw [hsplit] at hcalm
    exact Nat.even_iff.2 (even_of_calm hcalm)
  case pass =>
    have hlast : (quote s).toList.getLast? = some '"' := by
      rw [toList_quote, ← List.cons_append, List.getLast?_concat]
    have hodd : (quote s).toList.foldl oddAfter false = false := by
      rw [toList_quote, ← List.cons_append, List.foldl_append]
      rfl
    rw [translate_of_calm (calm_quote s) (by simp [hlast]), hodd]

theorem lex_quote_path :
    (quote "C:\\u0041\"").toList = "\"C:\\\\".toList ++ 'u' :: "0041\\\"\"".toList
      ∧ lex ((quote "C:\\u0041\"").toList ++ " + x".toList) =
          some ("C:\\u0041\"", " + x".toList)
      ∧ Even (trailingBackslashes "\"C:\\\\".toList)
      ∧ translate false ((quote "C:\\u0041\"").toList ++ " + x".toList) =
          some ((quote "C:\\u0041\"" ++ " + x").toList.map Char.toNat) := by
  have hquote : (quote "C:\\u0041\"").toList =
      "\"C:\\\\".toList ++ 'u' :: "0041\\\"\"".toList := by decide +kernel
  obtain ⟨hlex, heven, hpass⟩ := lex_quote "C:\\u0041\"" " + x".toList
  exact ⟨hquote, hlex, heven _ _ hquote, hpass.trans (by decide +kernel)⟩

end Scribe.Java
