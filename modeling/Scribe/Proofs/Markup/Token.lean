import Scribe.Format
import Scribe.Proofs.Text.Split
import Scribe.Text.Blank

/-!
A reader of markup, which knows nothing of documents: it goes over a text once, character by
character, and makes out declarations and tags with the names of their attributes. What it reads
does not change when lines are indented with blanks, as long as lines end between tags or within
quotes.
-/
namespace Scribe.Markup

inductive Token where
  /-- `<?name attributes?>` -/
  | declaration (name : String) (attributes : List String)
  /-- `<name attributes>` -/
  | opening (name : String) (attributes : List String)
  /-- `</name>` -/
  | closing (name : String)
  /-- `<name attributes/>` -/
  | single (name : String) (attributes : List String)
deriving DecidableEq, Repr

structure Head where
  declares : Bool
  name : String
  attributes : List String := []
deriving DecidableEq, Repr

def Head.add (h : Head) (name : String) : Head := { h with attributes := h.attributes ++ [name] }

inductive Reader where
  /-- Between tags. -/
  | content
  /-- After `<`. -/
  | begun
  | name (declares : Bool) (read : List Char)
  | gap (h : Head)
  /-- The name of an attribute. -/
  | key (h : Head) (read : List Char)
  /-- After the sign between an attribute and its value. -/
  | equals (h : Head)
  /-- Between quotes. -/
  | value (h : Head)
  /-- After the second quote. -/
  | valued (h : Head)
  /-- After the slash of a tag that closes itself. -/
  | slash (h : Head)
  /-- After the second question mark of a declaration. -/
  | question (h : Head)
  | closing (read : List Char)
deriving DecidableEq, Repr

def spaces : List Char := [' ', '\t', '\r', '\n']

def marks : List Char := ['<', '>', '&', '/', '!', '?', '=', '"', '\'']

def isSpace (c : Char) : Bool := spaces.contains c

def isNameChar (c : Char) : Bool := !(spaces ++ marks).contains c

namespace Reader

def proceed (h : Head) (c : Char) : Option (Reader × List Token) :=
  if h.name = "" then none
  else if isSpace c then some (.gap h, [])
  else if h.declares then if c = '?' then some (.question h, []) else none
  else if c = '/' then some (.slash h, [])
  else if c = '>' then some (.content, [.opening h.name h.attributes])
  else none

/-- Reads a character, and gives the tokens that end with it. -/
def step (s : Reader) (c : Char) : Option (Reader × List Token) :=
  match s with
  | .content => some (if c = '<' then .begun else .content, [])
  | .begun =>
    if c = '/' then some (.closing [], [])
    else if c = '?' then some (.name true [], [])
    else if isNameChar c then some (.name false [c], [])
    else none
  | .name declares read =>
    if isNameChar c then some (.name declares (read ++ [c]), [])
    else proceed ⟨declares, String.ofList read, []⟩ c
  | .gap h => if isNameChar c then some (.key h [c], []) else proceed h c
  | .key h read =>
    if isNameChar c then some (.key h (read ++ [c]), [])
    else if c = '=' then some (.equals (h.add (String.ofList read)), [])
    else proceed (h.add (String.ofList read)) c
  | .equals h => if c = '"' then some (.value h, []) else none
  | .value h =>
    if c = '"' then some (.valued h, []) else if c = '<' then none else some (.value h, [])
  | .valued h => proceed h c
  | .slash h => if c = '>' then some (.content, [.single h.name h.attributes]) else none
  | .question h => if c = '>' then some (.content, [.declaration h.name h.attributes]) else none
  | .closing read =>
    if isNameChar c then some (.closing (read ++ [c]), [])
    else if c = '>' ∧ read ≠ [] then some (.content, [.closing (String.ofList read)])
    else none

def run (s : Reader) : List Char → Option (Reader × List Token)
  | [] => some (s, [])
  | c :: cs => do
    let (s, ts) ← s.step c
    let (s, ts') ← s.run cs
    return (s, ts ++ ts')

end Reader

/-- The declarations and tags of a text in their order. Nothing may be left open, and in quotes no
tag may begin. -/
def tokenize (text : String) : Option (List Token) :=
  match Reader.content.run text.toList with
  | some (.content, ts) => some ts
  | _ => none

example : tokenize "<a b=\"/>\" c>\n  1 < <d/> > 2</a>" = none := by decide +kernel

example : tokenize "<a b=\"/>\" c>\n  1 &lt; <d/> > 2</a>" =
    some [.opening "a" ["b", "c"], .single "d" [], .closing "a"] := by decide +kernel

namespace Reader

variable {s s' s'' : Reader} {cs cs' : List Char} {ts ts' : List Token}

def IsCalm : Reader → Prop
  | .content | .value _ => True
  | _ => False

/-- A text is read from one state to another, and each of its lines ends in a calm one. -/
inductive Reads : Reader → List Char → List Token → Reader → Prop
  | nil (s : Reader) : Reads s [] [] s
  | cons {s s' s'' : Reader} {c : Char} {cs : List Char} {ts ts' : List Token}
    (first : s.step c = some (s', ts)) (calm : c = '\n' → s'.IsCalm) (rest : Reads s' cs ts' s'') :
    Reads s (c :: cs) (ts ++ ts') s''

namespace Reads

theorem run_eq (h : Reads s cs ts s') : s.run cs = some (s', ts) := by
  induction h with
  | nil => rfl
  | cons first _ _ ih => simp [run, first, ih]

theorem append (h : Reads s cs ts s') (h' : Reads s' cs' ts' s'') :
    Reads s (cs ++ cs') (ts ++ ts') s'' := by
  induction h with
  | nil => exact h'
  | cons first calm _ ih =>
    rw [List.append_assoc]
    exact .cons first calm (ih h')

theorem split (h : Reads s (cs ++ cs') ts s'') :
    ∃ s' ts₁ ts₂, Reads s cs ts₁ s' ∧ Reads s' cs' ts₂ s'' ∧ ts = ts₁ ++ ts₂ := by
  induction cs generalizing s ts with
  | nil => exact ⟨s, [], ts, .nil s, h, rfl⟩
  | cons c cs ih =>
    cases h with
    | cons first calm rest =>
      obtain ⟨s', ts₁, ts₂, hcs, hcs', rfl⟩ := ih rest
      exact ⟨s', _, ts₂, .cons first calm hcs, hcs', (List.append_assoc _ _ _).symm⟩

theorem char {c : Char} (h : s.step c = some (s', ts)) (hc : c ≠ '\n') : Reads s [c] ts s' := by
  have hread := Reads.cons h (fun heq => absurd heq hc) (.nil s')
  rwa [List.append_nil] at hread

theorem of_forall (hs : s.IsCalm) (h : ∀ c ∈ cs, s.step c = some (s, [])) : Reads s cs [] s := by
  induction cs with
  | nil => exact .nil s
  | cons c cs ih =>
    obtain ⟨hc, hcs⟩ := List.forall_mem_cons.1 h
    exact .cons hc (fun _ => hs) (ih hcs)

theorem isCalm_of_newline (h : Reads s (cs ++ ['\n']) ts s') : s'.IsCalm := by
  obtain ⟨_, _, _, -, hlast, -⟩ := h.split
  cases hlast with
  | cons first calm rest =>
    cases rest
    exact calm rfl

end Reads

/-! Indentation. -/

theorem step_blank (h : s.IsCalm) {c : Char} (hc : Text.isBlank c) : s.step c = some (s, []) := by
  have hless : c ≠ '<' := by
    rintro rfl
    exact absurd hc (by decide)
  have hquote : c ≠ '"' := by
    rintro rfl
    exact absurd hc (by decide)
  cases s with
  | content => simp [step, hless]
  | value h => simp [step, hless, hquote]
  | _ => exact h.elim

variable {f : Format}

theorem Reads.indentLine (hs : s.IsCalm) (hunit : Text.allBlank f.indentUnit) {line : String}
    (h : Reads s line.toList ts s') : Reads s (f.indentLine line).toList ts s' := by
  unfold Format.indentLine
  split
  · next hempty =>
    rw [hempty] at h
    exact h
  · rw [String.toList_append]
    refine (Reads.of_forall hs fun c hc => ?_).append h
    exact step_blank hs (List.all_eq_true.1 hunit c hc)

theorem Reads.indentLines (hterminator : Text.EndsLine f.lineTerminator)
    (hunit : Text.allBlank f.indentUnit) {lines : List String} (hs : s.IsCalm)
    (h : Reads s (f.lineTerminator.intercalate lines).toList ts s') :
    Reads s (f.lineTerminator.intercalate (lines.map f.indentLine)).toList ts s' := by
  induction lines generalizing s ts with
  | nil => exact h
  | cons line lines ih =>
    cases lines with
    | nil =>
      rw [String.intercalate_singleton] at h
      rw [List.map_singleton, String.intercalate_singleton]
      exact h.indentLine hs hunit
    | cons next lines =>
      rw [String.intercalate_cons_cons, String.toList_append, String.toList_append] at h
      obtain ⟨s₂, _, ts₂, hfirst, hrest, rfl⟩ := h.split
      obtain ⟨s₁, ts₁, ts₁', hline, hend, rfl⟩ := hfirst.split
      have hcalm : s₂.IsCalm := by
        obtain ⟨init, -, heq⟩ := hterminator
        rw [heq] at hend
        exact hend.isCalm_of_newline
      rw [List.map_cons, List.map_cons, String.intercalate_cons_cons, String.toList_append,
        String.toList_append]
      exact ((hline.indentLine hs hunit).append hend).append (ih hcalm hrest)

theorem Reads.indent (hterminator : Text.EndsLine f.lineTerminator)
    (hunit : Text.allBlank f.indentUnit) (hs : s.IsCalm) {text : String}
    (h : Reads s text.toList ts s') : Reads s (f.indent text).toList ts s' := by
  rw [← Text.intercalate_splitOn hterminator.ne_empty text] at h
  exact h.indentLines hterminator hunit hs

/-! Names and heads. -/

theorem ne_of_isNameChar {c mark : Char} (h : isNameChar c) (hmark : isNameChar mark = false) :
    c ≠ mark := by
  rintro rfl
  rw [h] at hmark
  exact nomatch hmark

theorem Reads.name {k : List Char → Reader}
    (hk : ∀ read c, isNameChar c → (k read).step c = some (k (read ++ [c]), []))
    (h : ∀ c ∈ cs, isNameChar c) (read : List Char) : Reads (k read) cs [] (k (read ++ cs)) := by
  induction cs generalizing read with
  | nil =>
    rw [List.append_nil]
    exact .nil _
  | cons c cs ih =>
    obtain ⟨hc, hcs⟩ := List.forall_mem_cons.1 h
    have hrest := ih hcs (read ++ [c])
    rw [List.append_assoc, List.singleton_append] at hrest
    exact .cons (hk read c hc) (fun heq => absurd heq (ne_of_isNameChar hc (by decide))) hrest

theorem Reads.wholeName {k : List Char → Reader}
    (hs : ∀ c, isNameChar c → s.step c = some (k [c], []))
    (hk : ∀ read c, isNameChar c → (k read).step c = some (k (read ++ [c]), []))
    (h : ∀ c ∈ cs, isNameChar c) (hne : cs ≠ []) : Reads s cs [] (k cs) := by
  cases cs with
  | nil => exact absurd rfl hne
  | cons c cs =>
    obtain ⟨hc, hcs⟩ := List.forall_mem_cons.1 h
    have hfirst : Reads s [c] [] (k [c]) := .char (hs c hc) (ne_of_isNameChar hc (by decide))
    exact hfirst.append (.name hk hcs [c])

def head? : Reader → Option Head
  | .name declares read => some ⟨declares, String.ofList read, []⟩
  | .key h read => some (h.add (String.ofList read))
  | .gap h | .valued h => some h
  | _ => none

theorem step_of_head? {h : Head} (hs : s.head? = some h) {c : Char} (hname : ¬ isNameChar c)
    (hc : c ≠ '=') : s.step c = proceed h c := by
  cases s with
  | name declares read => simpa [step, hname] using congrArg (proceed · c) (Option.some.inj hs)
  | key h' read => simpa [step, hname, hc] using congrArg (proceed · c) (Option.some.inj hs)
  | gap h' => simpa [step, hname] using congrArg (proceed · c) (Option.some.inj hs)
  | valued h' => exact congrArg (proceed · c) (Option.some.inj hs)
  | _ => exact nomatch hs

theorem Reads.delimiter {h : Head} (hs : s.head? = some h) {c : Char}
    (hproceed : proceed h c = some (s', ts)) (hname : isNameChar c = false) (hequals : c ≠ '=')
    (hnewline : c ≠ '\n') : Reads s [c] ts s' := by
  refine .char ?_ hnewline
  rw [step_of_head? hs (by simp [hname]) hequals, hproceed]

section

variable {h : Head} (hs : s.head? = some h) (hname : h.name ≠ "")

include hs hname

theorem Reads.gap : Reads s [' '] [] (.gap h) :=
  .delimiter hs (by simp [proceed, hname, isSpace, spaces]) (by decide) (by decide) (by decide)

theorem Reads.opens (htag : h.declares = false) :
    Reads s ['>'] [.opening h.name h.attributes] .content :=
  .delimiter hs (by simp [proceed, hname, isSpace, spaces, htag]) (by decide) (by decide) (by decide)

theorem Reads.closesItself (htag : h.declares = false) :
    Reads s ['/', '>'] [.single h.name h.attributes] .content := by
  have hslash : Reads s ['/'] [] (.slash h) :=
    .delimiter hs (by simp [proceed, hname, isSpace, spaces, htag]) (by decide) (by decide) (by decide)
  exact hslash.append (.char (by simp [step]) (by decide))

theorem Reads.declares (hdeclares : h.declares = true) :
    Reads s ['?', '>'] [.declaration h.name h.attributes] .content := by
  have hquestion : Reads s ['?'] [] (.question h) :=
    .delimiter hs (by simp [proceed, hname, isSpace, spaces, hdeclares]) (by decide) (by decide)
      (by decide)
  exact hquestion.append (.char (by simp [step]) (by decide))

end

end Reader

end Scribe.Markup
