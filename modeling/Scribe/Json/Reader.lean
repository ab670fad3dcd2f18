import Scribe.Json.Lexeme

/-!
Reading JSON text into a tree. Every call passes over a character or ends the reading, and the
budget of calls is taken from the length of the text.
-/
namespace Scribe.Json

/-- How many arrays and objects may be open at once around a kept value, itself included. -/
def maxOpen : Nat := 127

/-- A container met where too many are open already: its contents matter only to a reader that
passes over it. -/
def nest (lead : Lead) (opened : Nat) (t : Tree) : Tree :=
  if opened < maxOpen then t else .flawed ⟨.malformed, t.skipBreak?, some lead⟩

mutual

/-- The value at the start of a text, with `opened` containers around it. -/
def scanValue (budget opened : Nat) (cs : List Char) : Tree × Rest :=
  match budget with
  | 0 => stop .malformed none
  | budget + 1 =>
    match dropSpace cs with
    | [] => stop .truncated none
    | 'n' :: cs => literal .null .null ['u', 'l', 'l'] cs
    | 't' :: cs => literal (.bool true) .scalar ['r', 'u', 'e'] cs
    | 'f' :: cs => literal (.bool false) .scalar ['a', 'l', 's', 'e'] cs
    | '"' :: cs =>
      match string cs with
      | (.ok s, rest) => (.string s, rest)
      | (.error f, rest) => (.flawed f, rest)
    | '-' :: cs => unsignedNumeral true cs
    | '[' :: cs =>
      match dropSpace cs with
      | ']' :: cs => (nest .array opened (.array [] .closed), some cs)
      | [] => (nest .array opened (.array [] (.broken .truncated)), none)
      | cs =>
        let (items, close, rest) := scanItems budget (opened + 1) [] cs
        (nest .array opened (.array items close), rest)
    | '{' :: cs =>
      match dropSpace cs with
      | '}' :: cs => (nest .object opened (.object [] .closed), some cs)
      | cs =>
        let (members, close, rest) := scanMembers budget (opened + 1) [] cs
        (nest .object opened (.object members close), rest)
    | c :: cs => if c.isDigit then unsignedNumeral false (c :: cs) else stop .malformed none

def scanItems (budget opened : Nat) (done : List Tree) (cs : List Char) :
    List Tree × Close × Rest :=
  match budget with
  | 0 => (done.reverse, .broken .malformed, none)
  | budget + 1 =>
    let (item, rest) := scanValue budget opened cs
    match rest.map dropSpace with
    | none => ((item :: done).reverse, .broken .malformed, none)
    | some (']' :: cs) => ((item :: done).reverse, .closed, some cs)
    | some (',' :: cs) => scanItems budget opened (item :: done) cs
    | some [] => ((item :: done).reverse, .broken .truncated, none)
    | some _ => ((item :: done).reverse, .broken .malformed, none)

def scanMembers (budget opened : Nat) (done : List Member) (cs : List Char) :
    List Member × Close × Rest :=
  match budget with
  | 0 => (done.reverse, .broken .malformed, none)
  | budget + 1 =>
    match dropSpace cs with
    | [] => (done.reverse, .noKey .truncated, none)
    | '"' :: cs =>
      let (key, rest) := string cs
      let (value, rest) := match rest.map dropSpace with
        | none => stop .malformed none
        | some (':' :: cs) => scanValue budget opened cs
        | some [] => stop .truncated none
        | some _ => stop .malformed none
      let done := ⟨key, value⟩ :: done
      match rest.map dropSpace with
      | none => (done.reverse, .broken .malformed, none)
      | some ('}' :: cs) => (done.reverse, .closed, some cs)
      | some (',' :: cs) => scanMembers budget opened done cs
      | some [] => (done.reverse, .broken .truncated, none)
      | some _ => (done.reverse, .broken .malformed, none)
    | _ => (done.reverse, .noKey .malformed, none)

end

def Tree.ofText (text : String) : Tree × Bool :=
  let cs := text.toList
  let (t, rest) := scanValue (2 * cs.length + 4) 0 cs
  (t, (rest.map dropSpace).all (·.isEmpty))

end Scribe.Json
