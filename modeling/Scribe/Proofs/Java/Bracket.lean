import Scribe.Java.Literal
import Scribe.Proofs.Layout.Line
import Scribe.Proofs.Markup.Structure
import Scribe.Proofs.Text.Chars

/-!
A reader of brackets, which knows nothing of declarations: it goes over a text once, character by
character, with the brackets that are open in hand. What stands in a string literal is passed over,
and a literal that has begun must end before the line does. What is read does not change when lines
are indented.
-/
namespace Scribe.Java

open Markup (Blank)

inductive Shape where
  | round | curly | square | angle
deriving DecidableEq, Repr

inductive Bracket where
  | opening (s : Shape)
  | closing (s : Shape)
deriving DecidableEq, Repr

def bracket? : Char → Option Bracket
  | '(' => some (.opening .round)
  | ')' => some (.closing .round)
  | '\x7b' => some (.opening .curly)
  | '\x7d' => some (.closing .curly)
  | '[' => some (.opening .square)
  | ']' => some (.closing .square)
  | '<' => some (.opening .angle)
  | '>' => some (.closing .angle)
  | _ => none

/-- Whether a text is outside string literals, in one, or in one after a backslash. -/
inductive Mode where
  | code | literal | escaped
deriving DecidableEq, Repr

structure Scan where
  mode : Mode := .code
  /-- The brackets that are open, innermost first. -/
  opened : List Shape := []
deriving DecidableEq, Repr

namespace Scan

def breaksLine (c : Char) : Bool := c == '\n' || c == '\r'

/-- Only the bracket opened last can be closed. -/
def step (s : Scan) (c : Char) : Option Scan :=
  match s.mode with
  | .code =>
    if c = '"' then some { s with mode := .literal }
    else match bracket? c with
      | none => some s
      | some (.opening shape) => some { s with opened := shape :: s.opened }
      | some (.closing shape) =>
        if s.opened.head? = some shape then some { s with opened := s.opened.tail } else none
  | .literal =>
    if breaksLine c then none
    else if c = '"' then some { s with mode := .code }
    else if c = '\\' then some { s with mode := .escaped }
    else some s
  | .escaped => if breaksLine c then none else some { s with mode := .literal }

def run (s : Scan) (cs : List Char) : Option Scan := cs.foldlM step s

end Scan

/-- Outside string literals every bracket is closed by one of its shape, in the reverse of the order
in which they were opened, and every string literal ends on its line. -/
def WellBracketed (text : String) : Prop := Scan.run {} text.toList = some {}

instance (text : String) : Decidable (WellBracketed text) :=
  inferInstanceAs (Decidable (_ = _))

example : WellBracketed "@A(\"](\\\"\") List<String[]> f(int... x) \x7b\x7d" := by decide +kernel

example : ¬ WellBracketed "f(x[0)]" := by decide +kernel

def delimiters : List Char := ['"', '(', ')', '\x7b', '\x7d', '[', ']', '<', '>']

abbrev Unmarked (text : String) : Prop := Text.All (· ∉ delimiters) text

/-- Text that takes a reader from one place to another. -/
def Takes (s : Scan) (text : String) (s' : Scan) : Prop := s.run text.toList = some s'

/-- Text after which the same brackets are open as before. -/
def Balanced (text : String) : Prop :=
  ∀ opened, Takes ⟨.code, opened⟩ text ⟨.code, opened⟩

def Opens (shape : Shape) (text : String) : Prop :=
  ∀ opened, Takes ⟨.code, opened⟩ text ⟨.code, shape :: opened⟩

def Closes (shape : Shape) (text : String) : Prop :=
  ∀ opened, Takes ⟨.code, shape :: opened⟩ text ⟨.code, opened⟩

section

variable {s s' s'' : Scan} {a b text : String} {shape : Shape}

theorem takes_append :
    Takes s (a ++ b) s'' ↔ ∃ s', Takes s a s' ∧ Takes s' b s'' := by
  unfold Takes Scan.run
  rw [String.toList_append, List.foldlM_append]
  exact Option.bind_eq_some_iff

theorem Takes.append (h : Takes s a s') (h' : Takes s' b s'') : Takes s (a ++ b) s'' :=
  takes_append.2 ⟨s', h, h'⟩

theorem Takes.unique (h : Takes s text s') (h' : Takes s text s'') : s' = s'' :=
  Option.some.inj (h.symm.trans h')

theorem Balanced.wellBracketed (h : Balanced text) : WellBracketed text := h []

theorem Balanced.append (h : Balanced a) (h' : Balanced b) : Balanced (a ++ b) :=
  fun opened => (h opened).append (h' opened)

theorem Balanced.opens (h : Balanced a) (h' : Opens shape b) : Opens shape (a ++ b) :=
  fun opened => (h opened).append (h' opened)

theorem Opens.append (h : Opens shape a) (h' : Balanced b) : Opens shape (a ++ b) :=
  fun opened => (h opened).append (h' (shape :: opened))

theorem Opens.closes (h : Opens shape a) (h' : Closes shape b) : Balanced (a ++ b) :=
  fun opened => (h opened).append (h' opened)

theorem Balanced.between {o c : String} (h : Balanced text) (ho : Opens shape o)
    (hc : Closes shape c) : Balanced (o ++ text ++ c) := (ho.append h).closes hc

theorem Balanced.enclosed {o c : String} (h : Balanced a) (ho : Opens shape o) (hb : Balanced b)
    (hc : Closes shape c) : Balanced (a ++ o ++ b ++ c) := ((h.opens ho).append hb).closes hc

theorem opens_round : Opens .round "(" := fun _ => rfl

theorem closes_round : Closes .round ")" := fun _ => rfl

theorem opens_curly : Opens .curly "\x7b" := fun _ => rfl

theorem closes_curly : Closes .curly "\x7d" := fun _ => rfl

theorem opens_angle : Opens .angle "<" := fun _ => rfl

theorem closes_angle : Closes .angle ">" := fun _ => rfl

theorem step_of_notMem_delimiters {c : Char} (h : c ∉ delimiters) (opened : List Shape) :
    Scan.step ⟨.code, opened⟩ c = some ⟨.code, opened⟩ := by
  have hquote : c ≠ '"' := fun heq => h (heq ▸ by decide)
  have hbracket : bracket? c = none := by
    unfold bracket?
    split
    all_goals first | rfl | exact absurd (by decide) h
  simp [Scan.step, hquote, hbracket]

theorem balanced_of_unmarked (h : Unmarked text) : Balanced text := by
  intro opened
  unfold Takes Scan.run
  unfold Unmarked Text.All at h
  generalize text.toList = cs at h
  induction cs with
  | nil => rfl
  | cons c cs ih =>
    obtain ⟨hc, hcs⟩ := List.forall_mem_cons.1 h
    rw [List.foldlM_cons, step_of_notMem_delimiters hc]
    exact ih hcs

theorem balanced_empty : Balanced "" := fun _ => rfl

theorem Balanced.prepend (h : Balanced b) (ha : Unmarked a) : Balanced (a ++ b) :=
  (balanced_of_unmarked ha).append h

theorem Balanced.concat (h : Balanced a) (hb : Unmarked b) : Balanced (a ++ b) :=
  h.append (balanced_of_unmarked hb)

theorem unmarked_of_plain (h : Plain text) : Unmarked text := by
  have hdelimiters : delimiters.all (!isPlain ·) := by decide
  refine h.mono fun c hc hmem => ?_
  exact absurd (List.all_eq_true.1 hdelimiters c hmem) (by simp [hc])

theorem unmarked_of_allBlank (h : Text.allBlank text) : Unmarked text := by
  have hdelimiters : delimiters.all (!Text.isBlank ·) := by decide
  intro c hc hmem
  exact absurd (List.all_eq_true.1 hdelimiters c hmem) (by simp [List.all_eq_true.1 h c hc])

theorem balanced_join {ts : List String} (h : ∀ t ∈ ts, Balanced t) :
    Balanced (String.join ts) := by
  induction ts with
  | nil =>
    rw [String.join_nil]
    exact balanced_empty
  | cons t ts ih =>
    obtain ⟨ht, hts⟩ := List.forall_mem_cons.1 h
    rw [String.join_cons]
    exact ht.append (ih hts)

theorem balanced_intercalate {sep : String} {ts : List String} (hsep : Balanced sep)
    (h : ∀ t ∈ ts, Balanced t) : Balanced (sep.intercalate ts) := by
  cases ts with
  | nil =>
    rw [String.intercalate_nil]
    exact balanced_empty
  | cons t ts =>
    obtain ⟨ht, hts⟩ := List.forall_mem_cons.1 h
    rw [Text.intercalate_cons]
    refine ht.append (balanced_join ?_)
    rw [List.forall_mem_map]
    exact fun t ht => hsep.append (hts t ht)

/-! String literals. -/

theorem run_escapeChar (c : Char) (opened : List Shape) :
    Scan.run ⟨.literal, opened⟩ (escapeChar c) = some ⟨.literal, opened⟩ := by
  unfold escapeChar
  split
  case h_6 => simp_all [Scan.run, Scan.step, Scan.breaksLine]
  all_goals rfl

theorem balanced_quote (text : String) : Balanced (quote text) := by
  intro opened
  have hinside : Takes ⟨.literal, opened⟩ (Text.substitute escapeChar text) ⟨.literal, opened⟩ := by
    unfold Takes
    rw [Text.toList_substitute]
    induction text.toList with
    | nil => rfl
    | cons c cs ih =>
      have hc := run_escapeChar c opened
      unfold Scan.run at *
      rw [List.flatMap_cons, List.foldlM_append, hc]
      exact ih
  have hbegin : Takes ⟨.code, opened⟩ "\"" ⟨.literal, opened⟩ := rfl
  have hend : Takes ⟨.literal, opened⟩ "\"" ⟨.code, opened⟩ := rfl
  exact (hbegin.append hinside).append hend

/-! Layout. -/

theorem Takes.of_lineTerminator {sep : String} (h : Takes s sep s')
    (hsep : sep = "\n" ∨ sep = "\r\n") : s.mode = .code ∧ s' = s := by
  obtain ⟨mode, opened⟩ := s
  cases mode with
  | code =>
    have hbalanced : Balanced sep := by
      rcases hsep with rfl | rfl <;> exact balanced_of_unmarked (by decide)
    exact ⟨rfl, h.unique (hbalanced opened)⟩
  | literal | escaped => rcases hsep with rfl | rfl <;> exact nomatch h

variable {f : Format} {code : List String} {ts : List String}

theorem balanced_lineTerminator (hf : Blank f) : Balanced f.lineTerminator := by
  rcases hf.terminator with h | h <;> rw [h] <;> exact balanced_of_unmarked (by decide)

theorem takes_indentLine (hf : Blank f) {opened : List Shape} (h : Takes ⟨.code, opened⟩ text s) :
    Takes ⟨.code, opened⟩ (f.indentLine text) s := by
  unfold Format.indentLine
  split
  · next hempty => rwa [hempty] at h
  · exact (balanced_of_unmarked (unmarked_of_allBlank hf.unit) opened).append h

theorem takes_indentLines (hf : Blank f) {opened : List Shape} {lines : List String}
    (h : Takes ⟨.code, opened⟩ (f.lineTerminator.intercalate lines) s) :
    Takes ⟨.code, opened⟩ (f.lineTerminator.intercalate (lines.map f.indentLine)) s := by
  induction lines generalizing opened with
  | nil => exact h
  | cons line lines ih =>
    cases lines with
    | nil =>
      rw [String.intercalate_singleton] at h
      rw [List.map_singleton, String.intercalate_singleton]
      exact takes_indentLine hf h
    | cons next lines =>
      rw [String.intercalate_cons_cons] at h
      obtain ⟨s₂, hfirst, hrest⟩ := takes_append.1 h
      obtain ⟨⟨mode, opened'⟩, hline, hend⟩ := takes_append.1 hfirst
      obtain ⟨rfl, rfl⟩ := hend.of_lineTerminator hf.terminator
      rw [List.map_cons, List.map_cons, String.intercalate_cons_cons]
      exact ((takes_indentLine hf hline).append hend).append (ih hrest)

theorem balanced_indent (hf : Blank f) (h : Balanced text) : Balanced (f.indent text) := by
  intro opened
  have hread := h opened
  rw [← Text.intercalate_splitOn (Text.endsLine_of_eq hf.terminator).ne_empty text] at hread
  exact takes_indentLines hf hread

theorem balanced_block (hf : Blank f) (h : Balanced text) : Balanced (f.block text) := by
  unfold Format.block
  split
  · exact fun _ => rfl
  · exact (((opens_curly.append (balanced_lineTerminator hf)).append (balanced_indent hf h)).append
      (balanced_lineTerminator hf)).closes closes_curly

theorem balanced_joined {sep : String} (hsep : Balanced sep) (h : ∀ t ∈ ts, Balanced t) :
    Balanced (Format.join ts sep) :=
  balanced_intercalate hsep fun t ht => h t (List.mem_filter.1 ht).1

theorem balanced_lines (hf : Blank f) (h : ∀ t ∈ ts, Balanced t) : Balanced (f.lines ts) :=
  balanced_joined (balanced_lineTerminator hf) h

theorem balanced_separate (hf : Blank f) (h : ∀ t ∈ ts, Balanced t) :
    Balanced (f.separate ts) :=
  balanced_joined ((balanced_lineTerminator hf).append (balanced_lineTerminator hf)) h

theorem balanced_code (hf : Blank f) (h : ∀ line ∈ code, Unmarked line) :
    Balanced (f.code code) := by
  refine balanced_intercalate (balanced_lineTerminator hf) fun t ht => ?_
  obtain ⟨line, hline, hpiece⟩ := List.mem_flatMap.1 ht
  exact balanced_of_unmarked ((h line hline).of_mem_splitOn (by decide) hpiece)

end

end Scribe.Java
