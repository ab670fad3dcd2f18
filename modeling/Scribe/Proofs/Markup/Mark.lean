import Scribe.Markup.Binding

/-!
A reader of what markup says: it tells the text between tags, and within them what stands between
quotes, without a look at what it means.
-/
namespace Scribe.Markup

structure Mark where
  /-- The text since the mark before it. -/
  before : String
  /-- From `<` to `>`, but for what stands between quotes, and the quotes. -/
  outline : String
  /-- What stands between quotes. -/
  values : List String
deriving DecidableEq, Repr

/-- A mark that does not close a tag and is no declaration. -/
def Mark.starts (m : Mark) : Bool :=
  match m.outline.toList with
  | '<' :: c :: _ => c != '/' && c != '?'
  | _ => false

/-- The tags that begin in a text, each with the mark that comes next. -/
def startTags : List Mark → List (Mark × Option Mark)
  | [] => []
  | m :: ms => if m.starts then (m, ms.head?) :: startTags ms else startTags ms

inductive Scanner where
  /-- Between marks. -/
  | content (before : List Char)
  | mark (before outline : List Char) (values : List String)
  /-- Between quotes. -/
  | value (before outline : List Char) (values : List String) (read : List Char)
deriving DecidableEq, Repr

namespace Scanner

/-- Reads a character, and gives the mark that ends with it. -/
def step (s : Scanner) (c : Char) : Scanner × List Mark :=
  match s with
  | content before =>
    if c = '<' then (mark before ['<'] [], []) else (content (before ++ [c]), [])
  | mark before outline values =>
    if c = '"' then (value before outline values [], [])
    else if c = '>' then
      (content [], [⟨String.ofList before, String.ofList (outline ++ ['>']), values⟩])
    else (mark before (outline ++ [c]) values, [])
  | value before outline values read =>
    if c = '"' then (mark before outline (values ++ [String.ofList read]), [])
    else (value before outline values (read ++ [c]), [])

def run (s : Scanner) : List Char → Scanner × List Mark
  | [] => (s, [])
  | c :: cs =>
    let (s, ms) := s.step c
    let (s, ms') := s.run cs
    (s, ms ++ ms')

end Scanner

def scan (text : String) : List Mark := (Scanner.run (.content []) text.toList).2

example : scan "<a b=\"/>\" c>\n 1 &lt; 2</a>" =
    [⟨"", "<a b= c>", ["/>"]⟩, ⟨"\n 1 &lt; 2", "</a>", []⟩] := by decide +kernel

namespace Scanner

variable {s s' s'' : Scanner} {as bs cs before outline : List Char} {values : List String}
  {ms ms' : List Mark}

theorem run_cons (s : Scanner) (c : Char) (cs : List Char) :
    s.run (c :: cs) = (((s.step c).1.run cs).1, (s.step c).2 ++ ((s.step c).1.run cs).2) := rfl

theorem run_append (h : s.run as = (s', ms)) (h' : s'.run bs = (s'', ms')) :
    s.run (as ++ bs) = (s'', ms ++ ms') := by
  induction as generalizing s ms with
  | nil =>
    obtain ⟨rfl, rfl⟩ := Prod.mk.inj h
    exact h'
  | cons a as ih =>
    rw [run_cons, Prod.mk.injEq] at h
    obtain ⟨hstate, rfl⟩ := h
    rw [List.cons_append, run_cons, ih (Prod.ext hstate rfl), List.append_assoc]

theorem run_read {k : List Char → Scanner} {cs : List Char}
    (h : ∀ c ∈ cs, ∀ read, (k read).step c = (k (read ++ [c]), [])) (read : List Char) :
    (k read).run cs = (k (read ++ cs), []) := by
  induction cs generalizing read with
  | nil => rw [run, List.append_nil]
  | cons c cs ih =>
    obtain ⟨hc, hcs⟩ := List.forall_mem_cons.1 h
    rw [run_cons, hc, ih hcs, List.append_assoc]
    rfl

theorem run_content (h : '<' ∉ cs) (before : List Char) :
    (content before).run cs = (content (before ++ cs), []) := by
  refine run_read (fun c hc read => ?_) before
  have hless : c ≠ '<' := fun heq => h (heq ▸ hc)
  simp [step, hless]

theorem run_outline (hquote : '"' ∉ cs) (hend : '>' ∉ cs) (outline : List Char) :
    (mark before outline values).run cs = (mark before (outline ++ cs) values, []) := by
  refine run_read (k := (mark before · values)) (fun c hc read => ?_) outline
  have hquote : c ≠ '"' := fun heq => hquote (heq ▸ hc)
  have hend : c ≠ '>' := fun heq => hend (heq ▸ hc)
  simp [step, hquote, hend]

theorem run_quoted (h : '"' ∉ cs) :
    (mark before outline values).run ('"' :: cs ++ ['"']) =
      (mark before outline (values ++ [String.ofList cs]), []) := by
  have hvalue : (value before outline values []).run cs = (value before outline values cs, []) := by
    refine run_read (fun c hc read => ?_) []
    have hquote : c ≠ '"' := fun heq => h (heq ▸ hc)
    simp [step, hquote]
  have hopen : (mark before outline values).run ['"'] = (value before outline values [], []) := by
    simp [run, step]
  have hclose : (value before outline values cs).run ['"'] =
      (mark before outline (values ++ [String.ofList cs]), []) := by
    simp [run, step]
  exact run_append (run_append hopen hvalue) hclose

theorem run_end : (mark before outline values).run ['>'] =
    (content [], [⟨String.ofList before, String.ofList (outline ++ ['>']), values⟩]) := by
  simp [run, step]

end Scanner

end Scribe.Markup
