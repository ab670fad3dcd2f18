import Scribe.Json.Reader
import Scribe.Proofs.Json.Lexeme
import Scribe.Proofs.Json.Tree

/-!
What the text of a tree without flaws is read as: the tree, with every numeral as its own text is
read, and with a flaw where an array or object is open inside too many others.
-/
namespace Scribe.Json

theorem dropSpace_cons {c : Char} (h : isSpace c = false) (cs : List Char) :
    dropSpace (c :: cs) = c :: cs :=
  List.dropWhile_cons_of_neg (by rw [h]; decide)

namespace Tree

mutual

def Whole : Tree → Prop
  | .array items close => close = .closed ∧ WholeItems items
  | .object members close => close = .closed ∧ WholeMembers members
  | .flawed _ => False
  | _ => True

def WholeItems : List Tree → Prop
  | [] => True
  | t :: ts => t.Whole ∧ WholeItems ts

def WholeMembers : List Member → Prop
  | [] => True
  | ⟨key, value⟩ :: ms => (∃ s, key = .ok s) ∧ value.Whole ∧ WholeMembers ms

end

mutual

/-- What the text of a tree is read as within so many open containers. -/
def image (opened : Nat) : Tree → Tree
  | .number n => n.scanned
  | .array items close => nest .array opened (.array (imageItems (opened + 1) items) close)
  | .object members close => nest .object opened (.object (imageMembers (opened + 1) members) close)
  | t => t

def imageItems (opened : Nat) : List Tree → List Tree
  | [] => []
  | t :: ts => t.image opened :: imageItems opened ts

def imageMembers (opened : Nat) : List Member → List Member
  | [] => []
  | ⟨key, value⟩ :: ms => ⟨key, value.image opened⟩ :: imageMembers opened ms

end

mutual

/-- A tree that is read from its text within so many open containers. -/
def Sound (opened : Nat) : Tree → Prop
  | .number n => n.Legible
  | .array items close => close = .closed ∧ opened < maxOpen ∧ SoundItems (opened + 1) items
  | .object members close => close = .closed ∧ opened < maxOpen ∧ SoundMembers (opened + 1) members
  | .flawed _ => False
  | _ => True

def SoundItems (opened : Nat) : List Tree → Prop
  | [] => True
  | t :: ts => t.Sound opened ∧ SoundItems opened ts

def SoundMembers (opened : Nat) : List Member → Prop
  | [] => True
  | ⟨key, value⟩ :: ms => (∃ s, key = .ok s) ∧ value.Sound opened ∧ SoundMembers opened ms

end

mutual

theorem Sound.whole {opened : Nat} : {t : Tree} → t.Sound opened → t.Whole
  | .array _ _, ⟨hclose, _, hitems⟩ => ⟨hclose, SoundItems.whole hitems⟩
  | .object _ _, ⟨hclose, _, hmembers⟩ => ⟨hclose, SoundMembers.whole hmembers⟩
  | .null, _ | .bool _, _ | .number _, _ | .string _, _ => trivial

theorem SoundItems.whole {opened : Nat} : {ts : List Tree} → SoundItems opened ts → WholeItems ts
  | [], _ => trivial
  | _ :: _, ⟨h, hs⟩ => ⟨h.whole, SoundItems.whole hs⟩

theorem SoundMembers.whole {opened : Nat} :
    {ms : List Member} → SoundMembers opened ms → WholeMembers ms
  | [], _ => trivial
  | ⟨_, _⟩ :: _, ⟨hkey, h, hs⟩ => ⟨hkey, h.whole, SoundMembers.whole hs⟩

end

mutual

/-- A tree that is not too deep is read as it is, but for the spelling of its numerals. -/
theorem image_of_sound {opened : Nat} :
    {t : Tree} → t.Sound opened → t.image opened = t.renumber Numeral.reread
  | .number n, ⟨_, hscan, _⟩ => congrArg Prod.fst hscan
  | .array items _, ⟨_, hopened, hitems⟩ => by
    rw [image, nest, if_pos hopened, imageItems_of_sound hitems]
    rfl
  | .object members _, ⟨_, hopened, hmembers⟩ => by
    rw [image, nest, if_pos hopened, imageMembers_of_sound hmembers]
    rfl
  | .null, _ | .bool _, _ | .string _, _ => rfl

theorem imageItems_of_sound {opened : Nat} : {ts : List Tree} → SoundItems opened ts →
    imageItems opened ts = renumberItems Numeral.reread ts
  | [], _ => rfl
  | _ :: _, ⟨h, hs⟩ => by rw [imageItems, image_of_sound h, imageItems_of_sound hs, renumberItems]

theorem imageMembers_of_sound {opened : Nat} : {ms : List Member} → SoundMembers opened ms →
    imageMembers opened ms = renumberMembers Numeral.reread ms
  | [], _ => rfl
  | ⟨_, _⟩ :: _, ⟨_, h, hs⟩ => by
    rw [imageMembers, image_of_sound h, imageMembers_of_sound hs, renumberMembers]

end

end Tree

variable {budget opened : Nat} {rest : List Char}

theorem isSpace_of_isDigit {c : Char} (h : c.isDigit) : isSpace c = false := by
  rw [← Bool.not_eq_true]
  intro hspace
  simp only [isSpace, Bool.or_eq_true, beq_iff_eq] at hspace
  rcases hspace with ((rfl | rfl) | rfl) | rfl <;> exact absurd h (by decide)

theorem scanValue_of_isDigit {c : Char} (h : c.isDigit) (cs : List Char) :
    scanValue (budget + 1) opened (c :: cs) = unsignedNumeral false (c :: cs) := by
  rw [scanValue, dropSpace_cons (isSpace_of_isDigit h)]
  split
  · next heq => exact nomatch heq
  all_goals
    next heq =>
      obtain ⟨rfl, rfl⟩ := List.cons.inj heq
      first
        | exact absurd h (by decide)
        | exact if_pos h

theorem scanValue_numeral (n : Numeral) :
    scanValue (budget + 1) opened ((n.toText "+").toList ++ rest) =
      scanNumeral ((n.toText "+").toList ++ rest) := by
  obtain ⟨d, ds, hdigit, htext⟩ := n.toList_toText
  rw [htext]
  cases n.negative with
  | true =>
    simp only [↓reduceIte, List.cons_append, List.nil_append]
    rw [scanValue, dropSpace_cons (by decide)]
    rfl
  | false =>
    simp only [Bool.false_eq_true, ↓reduceIte, List.nil_append, List.cons_append]
    rw [scanValue_of_isDigit hdigit, scanNumeral_of_isDigit hdigit]

theorem exists_head {t : Tree} (h : t.Whole) :
    ∃ c cs, t.toText.toList = c :: cs ∧ isSpace c = false ∧ c ≠ ']' := by
  cases t with
  | null => exact ⟨'n', _, rfl, by decide, by decide⟩
  | bool b => cases b <;> exact ⟨_, _, rfl, by decide, by decide⟩
  | number n =>
    obtain ⟨d, ds, hdigit, htext⟩ := n.toList_toText
    rw [Tree.toText, htext]
    cases n.negative with
    | true => exact ⟨'-', _, rfl, by decide, by decide⟩
    | false =>
      refine ⟨d, ds, rfl, isSpace_of_isDigit hdigit, ?_⟩
      rintro rfl
      exact absurd hdigit (by decide)
  | string s =>
    rw [Tree.toText, toList_quote]
    exact ⟨'"', _, rfl, by decide, by decide⟩
  | array items close =>
    rw [Tree.toText, String.toList_append, String.toList_append]
    exact ⟨'[', _, rfl, by decide, by decide⟩
  | object members close =>
    rw [Tree.toText, String.toList_append, String.toList_append]
    exact ⟨'\x7b', _, rfl, by decide, by decide⟩
  | flawed f => exact h.elim

/-! One step of a scan. -/

section

variable {items doneItems : List Tree} {members doneMembers : List Member} {t : Tree}
  {cs after : List Char}

theorem scanItems_close (hvalue : scanValue budget opened cs = (t, some after))
    (hafter : dropSpace after = ']' :: rest) :
    scanItems (budget + 1) opened doneItems cs = (doneItems.reverse ++ [t], .closed, some rest) := by
  rw [scanItems, hvalue]
  simp only [Option.map_some, hafter, List.reverse_cons]

theorem scanItems_more (hvalue : scanValue budget opened cs = (t, some after))
    (hafter : dropSpace after = ',' :: rest) :
    scanItems (budget + 1) opened doneItems cs = scanItems budget opened (t :: doneItems) rest := by
  rw [scanItems, hvalue]
  simp only [Option.map_some, hafter]

theorem string_quote (s : String) (rest : List Char) :
    ∃ cs, (quote s).toList ++ rest = '"' :: cs ∧ string cs = (.ok s, some rest) := by
  refine ⟨s.toList.flatMap escape ++ '"' :: rest, ?_, string_escapes s rest⟩
  rw [toList_quote, List.cons_append, List.append_assoc]
  rfl

theorem scanMembers_close {name : String} (hvalue : scanValue budget opened cs = (t, some after))
    (hafter : dropSpace after = '\x7d' :: rest) :
    scanMembers (budget + 1) opened doneMembers ((quote name).toList ++ ':' :: cs) =
      (doneMembers.reverse ++ [⟨.ok name, t⟩], .closed, some rest) := by
  obtain ⟨ds, hquote, hstring⟩ := string_quote name (':' :: cs)
  rw [hquote, scanMembers, dropSpace_cons (by decide)]
  simp only [hstring, Option.map_some, dropSpace_cons (show isSpace ':' = false by decide), hvalue,
    hafter, List.reverse_cons]

theorem scanMembers_more {name : String} (hvalue : scanValue budget opened cs = (t, some after))
    (hafter : dropSpace after = ',' :: rest) :
    scanMembers (budget + 1) opened doneMembers ((quote name).toList ++ ':' :: cs) =
      scanMembers budget opened (⟨.ok name, t⟩ :: doneMembers) rest := by
  obtain ⟨ds, hquote, hstring⟩ := string_quote name (':' :: cs)
  rw [hquote, scanMembers, dropSpace_cons (by decide)]
  simp only [hstring, Option.map_some, dropSpace_cons (show isSpace ':' = false by decide), hvalue,
    hafter]

theorem scanValue_array_nil : scanValue (budget + 1) opened ('[' :: ']' :: rest) =
    (nest .array opened (.array [] .closed), some rest) := by
  rw [scanValue, dropSpace_cons (by decide)]
  simp only [dropSpace_cons (show isSpace ']' = false by decide)]

theorem scanValue_object_nil : scanValue (budget + 1) opened ('\x7b' :: '\x7d' :: rest) =
    (nest .object opened (.object [] .closed), some rest) := by
  rw [scanValue, dropSpace_cons (by decide)]
  simp only [dropSpace_cons (show isSpace '\x7d' = false by decide)]

theorem scanValue_array {c : Char} (hspace : isSpace c = false) (hclose : c ≠ ']')
    (hitems : scanItems budget (opened + 1) [] (c :: cs) = (items, .closed, some rest)) :
    scanValue (budget + 1) opened ('[' :: c :: cs) =
      (nest .array opened (.array items .closed), some rest) := by
  rw [scanValue, dropSpace_cons (by decide)]
  simp only [dropSpace_cons hspace]
  split
  · next heq => exact absurd (List.cons.inj heq).1 hclose
  · next heq => exact nomatch heq
  · rw [hitems]

theorem scanValue_object (name : String)
    (hmembers : scanMembers budget (opened + 1) [] ((quote name).toList ++ cs) =
      (members, .closed, some rest)) :
    scanValue (budget + 1) opened ('\x7b' :: ((quote name).toList ++ cs)) =
      (nest .object opened (.object members .closed), some rest) := by
  obtain ⟨ds, hquote, -⟩ := string_quote name cs
  rw [hquote] at hmembers ⊢
  rw [scanValue, dropSpace_cons (by decide)]
  simp only [dropSpace_cons (show isSpace '"' = false by decide)]
  split
  · next heq => exact nomatch heq
  · rw [hmembers]

end

/-! Texts of items and members. -/

def itemChars (ts : List Tree) : List Char := (",".intercalate (Tree.itemTexts ts)).toList

def memberChars (ms : List Member) : List Char := (",".intercalate (Tree.memberTexts ms)).toList

theorem itemChars_singleton (t : Tree) : itemChars [t] = t.toText.toList := by
  unfold itemChars
  rw [Tree.itemTexts, Tree.itemTexts, String.intercalate_singleton]

theorem itemChars_cons (t u : Tree) (us : List Tree) :
    itemChars (t :: u :: us) = t.toText.toList ++ ',' :: itemChars (u :: us) := by
  unfold itemChars
  rw [Tree.itemTexts, Tree.itemTexts, String.intercalate_cons_cons, String.toList_append,
    String.toList_append, List.append_assoc]
  rfl

theorem memberChars_singleton (name : String) (t : Tree) :
    memberChars [⟨.ok name, t⟩] = (quote name).toList ++ ':' :: t.toText.toList := by
  unfold memberChars
  rw [Tree.memberTexts, Tree.memberTexts, String.intercalate_singleton, String.toList_append,
    String.toList_append, List.append_assoc]
  rfl

theorem memberChars_cons (name : String) (t : Tree) (m : Member) (ms : List Member) :
    memberChars (⟨.ok name, t⟩ :: m :: ms) =
      (quote name).toList ++ ':' :: (t.toText.toList ++ ',' :: memberChars (m :: ms)) := by
  have hne : Tree.memberTexts (m :: ms) ≠ [] := by
    obtain ⟨key, value⟩ := m
    cases key <;> exact List.cons_ne_nil _ _
  have htexts : Tree.memberTexts (⟨.ok name, t⟩ :: m :: ms) =
      (quote name ++ ":" ++ t.toText) :: Tree.memberTexts (m :: ms) := rfl
  unfold memberChars
  rw [htexts, String.intercalate_cons_of_ne_nil hne]
  simp only [String.toList_append, List.append_assoc]
  rfl

theorem toList_toText_array (items : List Tree) (close : Close) :
    (Tree.array items close).toText.toList = '[' :: (itemChars items ++ [']']) := by
  rw [Tree.toText, String.toList_append, String.toList_append, List.append_assoc]
  rfl

theorem toList_toText_object (members : List Member) (close : Close) :
    (Tree.object members close).toText.toList = '\x7b' :: (memberChars members ++ ['\x7d']) := by
  rw [Tree.toText, String.toList_append, String.toList_append, List.append_assoc]
  rfl

theorem exists_head_itemChars {t : Tree} {ts : List Tree}
    (h : Tree.WholeItems (t :: ts)) :
    ∃ c cs, itemChars (t :: ts) = c :: cs ∧ isSpace c = false ∧ c ≠ ']' := by
  obtain ⟨c, cs, hhead, hc⟩ := exists_head h.1
  cases ts with
  | nil => exact ⟨c, cs, (itemChars_singleton t).trans hhead, hc⟩
  | cons u us =>
    rw [itemChars_cons, hhead]
    exact ⟨c, _, rfl, hc⟩

theorem exists_head_memberChars {m : Member} {ms : List Member}
    (h : Tree.WholeMembers (m :: ms)) :
    ∃ name cs, memberChars (m :: ms) = (quote name).toList ++ cs := by
  obtain ⟨key, value⟩ := m
  obtain ⟨name, rfl⟩ := h.1
  cases ms with
  | nil => exact ⟨name, _, memberChars_singleton name value⟩
  | cons m ms => exact ⟨name, _, memberChars_cons name value m ms⟩

theorem endsNumeral_cons {c : Char} (h : c = ',' ∨ c = ']' ∨ c = '\x7d') (cs : List Char) :
    EndsNumeral (c :: cs) := by
  intro d hd
  obtain rfl := Option.some.inj hd
  rcases h with rfl | rfl | rfl <;> decide

theorem exists_pred {n m : Nat} (h : m < n) : ∃ k, n = k + 1 := ⟨n - 1, by omega⟩

-- A call of the scan passes over a character or opens a list, and a list has its own bracket, so
-- two calls a character are enough.
open Scribe.Json.Tree in
mutual

/-- A value is scanned from its text, whatever follows it. -/
theorem scanValue_toText (t : Tree) {budget opened : Nat} {rest : List Char} (h : t.Whole)
    (hrest : EndsNumeral rest) (hbudget : 2 * t.toText.toList.length ≤ budget) :
    scanValue (budget + 1) opened (t.toText.toList ++ rest) = (t.image opened, some rest) := by
  cases t with
  | null => rfl
  | bool b => cases b <;> rfl
  | number n =>
    rw [toText, scanValue_numeral, scanNumeral_append hrest n.scanNumeral_toText, List.nil_append]
    rfl
  | string s =>
    obtain ⟨cs, hquote, hstring⟩ := string_quote s rest
    rw [toText, hquote, scanValue, dropSpace_cons (by decide)]
    simp only [hstring]
    rfl
  | array items close =>
    obtain ⟨hclose, hwhole⟩ := h
    rw [toList_toText_array] at hbudget ⊢
    rw [List.length_cons, List.length_append] at hbudget
    obtain ⟨budget, rfl⟩ : ∃ k, budget = k + 1 := exists_pred (m := 0) (by omega)
    have hitems (hne : items ≠ []) :=
      @scanItems_toText items hne budget (opened + 1) [] rest hwhole (by omega)
    rw [hclose, List.cons_append, List.append_assoc]
    cases items with
    | nil => exact scanValue_array_nil
    | cons t ts =>
      obtain ⟨c, cs, hhead, hspace, hne⟩ := exists_head_itemChars hwhole
      have hscan := hitems (List.cons_ne_nil t ts)
      rw [hhead, List.cons_append] at hscan ⊢
      exact scanValue_array hspace hne hscan
  | object members close =>
    obtain ⟨hclose, hwhole⟩ := h
    rw [toList_toText_object] at hbudget ⊢
    rw [List.length_cons, List.length_append] at hbudget
    obtain ⟨budget, rfl⟩ : ∃ k, budget = k + 1 := exists_pred (m := 0) (by omega)
    have hmembers (hne : members ≠ []) :=
      @scanMembers_toText members hne budget (opened + 1) [] rest hwhole (by omega)
    rw [hclose, List.cons_append, List.append_assoc]
    cases members with
    | nil => exact scanValue_object_nil
    | cons m ms =>
      obtain ⟨name, cs, hhead⟩ := exists_head_memberChars hwhole
      have hscan := hmembers (List.cons_ne_nil m ms)
      rw [hhead, List.append_assoc] at hscan ⊢
      exact scanValue_object name hscan
  | flawed f => exact h.elim
termination_by structural t

theorem scanItems_toText (ts : List Tree) (hne : ts ≠ []) {budget opened : Nat} {done : List Tree}
    {rest : List Char} (h : WholeItems ts) (hbudget : 2 * (itemChars ts).length < budget) :
    scanItems (budget + 1) opened done (itemChars ts ++ ']' :: rest) =
      (done.reverse ++ imageItems opened ts, .closed, some rest) := by
  obtain ⟨budget, rfl⟩ := exists_pred hbudget
  cases ts with
  | nil => exact absurd rfl hne
  | cons t ts =>
    obtain ⟨hwhole, hwholes⟩ := h
    have hscan {rest : List Char} := @scanValue_toText t budget opened rest hwhole
    have htail {done : List Tree} {rest : List Char} (hne : ts ≠ []) :=
      @scanItems_toText ts hne budget opened done rest hwholes
    cases ts with
    | nil =>
      rw [itemChars_singleton] at hbudget ⊢
      exact scanItems_close (hscan (endsNumeral_cons (by decide) _) (by omega))
        (dropSpace_cons (by decide) rest)
    | cons u us =>
      rw [itemChars_cons, List.length_append, List.length_cons] at hbudget
      rw [itemChars_cons, List.append_assoc, List.cons_append]
      rw [scanItems_more (hscan (endsNumeral_cons (by decide) _) (by omega))
        (dropSpace_cons (by decide) _), htail (List.cons_ne_nil u us) (by omega), List.reverse_cons,
        List.append_assoc]
      rfl
termination_by structural ts

theorem scanMembers_toText (ms : List Member) (hne : ms ≠ []) {budget opened : Nat}
    {done : List Member} {rest : List Char} (h : WholeMembers ms)
    (hbudget : 2 * (memberChars ms).length < budget) :
    scanMembers (budget + 1) opened done (memberChars ms ++ '\x7d' :: rest) =
      (done.reverse ++ imageMembers opened ms, .closed, some rest) := by
  obtain ⟨budget, rfl⟩ := exists_pred hbudget
  cases ms with
  | nil => exact absurd rfl hne
  | cons m ms =>
    obtain ⟨key, value⟩ := m
    obtain ⟨⟨name, rfl⟩, hwhole, hwholes⟩ := h
    have hscan {rest : List Char} := @scanValue_toText value budget opened rest hwhole
    have htail {done : List Member} {rest : List Char} (hne : ms ≠ []) :=
      @scanMembers_toText ms hne budget opened done rest hwholes
    cases ms with
    | nil =>
      rw [memberChars_singleton, List.length_append, List.length_cons] at hbudget
      rw [memberChars_singleton, List.append_assoc, List.cons_append]
      exact scanMembers_close (hscan (endsNumeral_cons (by decide) _) (by omega))
        (dropSpace_cons (by decide) rest)
    | cons m ms =>
      rw [memberChars_cons, List.length_append, List.length_cons, List.length_append,
        List.length_cons] at hbudget
      rw [memberChars_cons, List.append_assoc, List.cons_append, List.append_assoc,
        List.cons_append, scanMembers_more (hscan (endsNumeral_cons (by decide) _) (by omega))
        (dropSpace_cons (by decide) _), htail (List.cons_ne_nil m ms) (by omega), List.reverse_cons,
        List.append_assoc]
      rfl
termination_by structural ms

end

/-- What the text of a tree without flaws is read as. -/
theorem ofText_toText_image {t : Tree} (h : t.Whole) :
    Tree.ofText t.toText = (t.image 0, true) := by
  have hscan := @scanValue_toText t (2 * t.toText.toList.length + 3) 0 [] h nofun (by omega)
  rw [List.append_nil] at hscan
  unfold Tree.ofText
  simp only [hscan, Option.map_some]
  rfl

/-- The text of a tree that is not too deep is read back to its end. -/
theorem ofText_toText {t : Tree} (h : t.Sound 0) :
    Tree.ofText t.toText = (t.renumber Numeral.reread, true) := by
  rw [ofText_toText_image h.whole, Tree.image_of_sound h]

end Scribe.Json
