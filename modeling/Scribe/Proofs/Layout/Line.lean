import Scribe.Format
import Scribe.Proofs.Text.Split

/-!
Text as lines, each at its own level. A format decides how deep a level is and how a line ends, and
nothing else.
-/
namespace Scribe

open Text (OneLine)

structure Line where
  level : Nat
  content : String
  oneLine : OneLine content
deriving DecidableEq

namespace Line

def text (f : Format) (l : Line) : String :=
  if l.content = "" then "" else Text.times l.level f.indentUnit ++ l.content

def deeper (l : Line) : Line := { l with level := l.level + 1 }

/-- With more text after it; what follows an empty line stands at the left margin. -/
def extend (l : Line) (text : String) (h : OneLine text) : Line where
  level := if l.content = "" then 0 else l.level
  content := l.content ++ text
  oneLine := by
    unfold OneLine
    rw [String.toList_append, List.mem_append]
    exact not_or.2 ⟨l.oneLine, h⟩

end Line

namespace Format

def typeset (f : Format) (ls : List Line) : String :=
  f.lineTerminator.intercalate (ls.map (·.text f))

/-- Lines with a terminator after each, unless there is no text at all. -/
def page (f : Format) (ls : List Line) : String :=
  let text := f.typeset ls
  if text = "" then "" else text ++ f.lineTerminator

/-- A format that ends lines with a newline, or a carriage return and a newline, and does not begin
new ones by indenting. -/
structure Regular (f : Format) : Prop where
  unit : OneLine f.indentUnit
  terminator : f.lineTerminator = "\n" ∨ f.lineTerminator = "\r\n"

theorem Regular.endsLine {f : Format} (h : f.Regular) : Text.EndsLine f.lineTerminator :=
  Text.endsLine_of_eq h.terminator

end Format

abbrev RegularFormat := { f : Format // f.Regular }

namespace Text

@[simp] theorem oneLine_append {a b : String} : OneLine (a ++ b) ↔ OneLine a ∧ OneLine b := by
  unfold OneLine
  rw [String.toList_append, List.mem_append, not_or]

theorem oneLine_join {ts : List String} (h : ∀ t ∈ ts, OneLine t) : OneLine (String.join ts) := by
  induction ts with
  | nil => rw [String.join_nil]; decide
  | cons t ts ih =>
    obtain ⟨ht, hts⟩ := List.forall_mem_cons.1 h
    rw [String.join_cons, oneLine_append]
    exact ⟨ht, ih hts⟩

theorem oneLine_times {text : String} (h : OneLine text) (n : Nat) : OneLine (times n text) :=
  oneLine_join fun _ ht => List.eq_of_mem_replicate ht ▸ h

theorem times_succ (n : Nat) (text : String) : times (n + 1) text = text ++ times n text := by
  rw [times, List.replicate_succ, String.join_cons, times]

theorem intercalate_cons (sep t : String) (ts : List String) :
    sep.intercalate (t :: ts) = t ++ String.join (ts.map (sep ++ ·)) := by
  induction ts generalizing t with
  | nil => rw [String.intercalate_singleton, List.map_nil, String.join_nil, String.append_empty]
  | cons u ts ih =>
    rw [String.intercalate_cons_cons, ih, List.map_cons, String.join_cons, String.append_assoc,
      String.append_assoc]

end Text

namespace Line

theorem oneLine_text {f : Format} (h : f.Regular) (l : Line) : OneLine (l.text f) := by
  unfold text
  split
  · decide
  · exact Text.oneLine_append.2 ⟨Text.oneLine_times h.unit _, l.oneLine⟩

theorem text_eq_empty_iff (f : Format) (l : Line) : l.text f = "" ↔ l.content = "" := by
  unfold text
  split
  · next h => exact iff_of_true rfl h
  · next h => exact iff_of_false (fun hempty => h (String.append_eq_empty_iff.1 hempty).2) h

theorem text_deeper (f : Format) (l : Line) : l.deeper.text f = f.indentLine (l.text f) := by
  unfold text deeper Format.indentLine
  by_cases hempty : l.content = ""
  · simp [hempty]
  · rw [if_neg hempty, if_neg hempty, if_neg, Text.times_succ, String.append_assoc]
    exact fun h => hempty (String.append_eq_empty_iff.1 h).2

theorem text_extend (f : Format) (l : Line) {text : String} (h : OneLine text) :
    (l.extend text h).text f = l.text f ++ text := by
  unfold Line.text extend
  by_cases hempty : l.content = ""
  · by_cases htext : text = "" <;> simp [hempty, htext, Text.times]
  · have hne : l.content ++ text ≠ "" := fun h => hempty (String.append_eq_empty_iff.1 h).1
    rw [if_neg hempty, if_neg hempty, if_neg hne, String.append_assoc]

theorem text_of_margin {l : Line} (f : Format) (h : l.level = 0) : l.text f = l.content := by
  unfold text
  rw [h]
  split
  · next hempty => exact hempty.symm
  · exact String.empty_append

def margin (text : String) (h : OneLine text) : Line := ⟨0, text, h⟩

theorem level_extend {l : Line} (h : l.level = 0) (text : String) (htext : OneLine text) :
    (l.extend text htext).level = 0 := by
  unfold extend
  dsimp only
  split
  · rfl
  · exact h

end Line

theorem Format.typeset_cons (f : Format) (l : Line) (ls : List Line) :
    f.typeset (l :: ls) =
      l.text f ++ String.join (ls.map fun l => f.lineTerminator ++ l.text f) := by
  rw [typeset, List.map_cons, Text.intercalate_cons, List.map_map]
  rfl

theorem Format.Regular.typeset_eq_empty_iff {f : Format} (h : f.Regular) {l : Line}
    {ls : List Line} : f.typeset (l :: ls) = "" ↔ l.content = "" ∧ ls = [] := by
  rw [typeset_cons, String.append_eq_empty_iff, l.text_eq_empty_iff]
  refine and_congr_right fun _ => ?_
  cases ls with
  | nil => exact iff_of_true rfl rfl
  | cons l ls =>
    refine iff_of_false (fun hempty => ?_) (List.cons_ne_nil l ls)
    rw [List.map_cons, String.join_cons, String.append_eq_empty_iff,
      String.append_eq_empty_iff] at hempty
    exact h.endsLine.ne_empty hempty.1.1

namespace Format

variable (f : Format) {l : Line} {ls ms : List Line}

theorem typeset_singleton (l : Line) : f.typeset [l] = l.text f := by
  rw [typeset, List.map_singleton, String.intercalate_singleton]

theorem typeset_margin (text : String) (h : OneLine text) : f.typeset [.margin text h] = text := by
  rw [typeset_singleton, Line.text_of_margin f rfl]
  rfl

theorem typeset_append (hls : ls ≠ []) (hms : ms ≠ []) :
    f.typeset (ls ++ ms) = f.typeset ls ++ (f.lineTerminator ++ f.typeset ms) := by
  rw [typeset, List.map_append, String.intercalate_append_of_ne_nil (List.map_eq_nil_iff.not.2 hls)
    (List.map_eq_nil_iff.not.2 hms), String.append_assoc, typeset, typeset]

theorem typeset_below (hls : ls ≠ []) :
    f.typeset (l :: ls) = l.text f ++ (f.lineTerminator ++ f.typeset ls) := by
  have happend := f.typeset_append (List.cons_ne_nil l []) hls
  rwa [f.typeset_singleton] at happend

end Format

theorem Format.Regular.splitOn_typeset {f : Format} (h : f.Regular) {ls : List Line}
    (hne : ls ≠ []) : Text.splitOn f.lineTerminator (f.typeset ls) = ls.map (·.text f) := by
  refine Text.splitOn_intercalate h.endsLine (List.map_eq_nil_iff.not.2 hne) ?_
  rw [List.forall_mem_map]
  exact fun l _ => l.oneLine_text h

theorem Format.Regular.indent_typeset {f : Format} (h : f.Regular) {ls : List Line}
    (hne : ls ≠ []) : f.indent (f.typeset ls) = f.typeset (ls.map .deeper) := by
  rw [Format.indent, h.splitOn_typeset hne, Format.typeset, List.map_map, List.map_map]
  congr 2
  funext l
  exact (l.text_deeper f).symm

end Scribe
