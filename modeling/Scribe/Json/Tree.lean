import Scribe.Number.Numeral

/-!
JSON as it stands in a text that may be wrong. What is wrong depends on what the text is read for:
a value that is kept must hold whole characters, numbers within range and no more than the allowed
nesting, and one that is passed over must only be JSON. So a tree keeps each flaw in its place, and
a reader that walks it from left to right meets the flaws that matter to it in the order of the
text.
-/
namespace Scribe.Json

/-- How a text can fail to be JSON: it goes wrong, or it stops too early. -/
inductive Break where
  | malformed | truncated
deriving DecidableEq, Repr

inductive Lead where
  /-- The first letter of `null`. -/
  | null
  /-- A truth value or a numeral. -/
  | scalar
  | string | array | object
deriving DecidableEq, Repr

structure Flaw where
  /-- What a reader that wants the value finds. -/
  kept : Break
  /-- What a reader that passes over the value finds, if anything. -/
  skipped : Option Break
  /-- What stands before the flaw, if anything does. -/
  lead : Option Lead
deriving DecidableEq, Repr

/-- The end of an array or object: its bracket, text where a comma or the bracket should be, or,
in an object, text where a key should be. -/
inductive Close where
  | closed
  | broken (why : Break)
  | noKey (why : Break)
deriving DecidableEq, Repr

mutual

inductive Tree where
  | null
  | bool (b : Bool)
  | number (n : Numeral)
  | string (s : String)
  | array (items : List Tree) (close : Close)
  | object (members : List Member) (close : Close)
  | flawed (flaw : Flaw)

structure Member where
  key : Except Flaw String
  value : Tree

end

def Close.break? : Close → Option Break
  | .closed => none
  | .broken why | .noKey why => some why

namespace Tree

def list (items : List Tree) : Tree := .array items .closed

def record (members : List (String × Tree)) : Tree :=
  .object (members.map fun m => ⟨.ok m.1, m.2⟩) .closed

mutual

/-- The first thing wrong for a reader that passes over the value. -/
def skipBreak? : Tree → Option Break
  | .flawed f => f.skipped
  | .array items close => (skipItems? items).or close.break?
  | .object members close => (skipMembers? members).or close.break?
  | _ => none

def skipItems? : List Tree → Option Break
  | [] => none
  | t :: ts => t.skipBreak?.or (skipItems? ts)

def skipMembers? : List Member → Option Break
  | [] => none
  | ⟨key, value⟩ :: ms =>
    let atKey := match key with
      | .ok _ => none
      | .error f => f.skipped
    atKey.or (value.skipBreak?.or (skipMembers? ms))

end

mutual

/-- The first thing wrong for a reader that keeps the whole value. -/
def keepBreak? : Tree → Option Break
  | .flawed f => some f.kept
  | .array items close => (keepItems? items).or close.break?
  | .object members close => (keepMembers? members).or close.break?
  | _ => none

def keepItems? : List Tree → Option Break
  | [] => none
  | t :: ts => t.keepBreak?.or (keepItems? ts)

def keepMembers? : List Member → Option Break
  | [] => none
  | ⟨key, value⟩ :: ms =>
    let atKey := match key with
      | .ok _ => none
      | .error f => some f.kept
    atKey.or (value.keepBreak?.or (keepMembers? ms))

end

end Tree

end Scribe.Json
