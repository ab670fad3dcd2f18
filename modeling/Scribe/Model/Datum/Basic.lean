import Scribe.Json.Schema

/-!
Data of a schema as options, lists and scalars, and their equality, which compares numbers by value.
-/
namespace Scribe.Json.Datum

def ofOption (f : α → Datum) : Option α → Datum
  | none => .absent
  | some a => f a

def toOption? (f : Datum → Option α) : Datum → Option (Option α)
  | .absent => some none
  | d => (f d).map some

def toString? : Datum → Option String
  | .string s => some s
  | _ => none

def toBool? : Datum → Option Bool
  | .bool b => some b
  | _ => none

def ofStrings (ss : List String) : Datum := .list (ss.map .string)

def toList? (f : Datum → Option α) : Datum → Option (List α)
  | .list ds => ds.mapM f
  | _ => none

mutual

def beq : Datum → Datum → Bool
  | .string s, .string t => s == t
  | .bool a, .bool b => a == b
  | .size n, .size m => n == m
  | .integer i, .integer j => i == j
  | .binary32 x, .binary32 y => x == y
  | .binary64 x, .binary64 y => x == y
  | .absent, .absent => true
  | .list ds, .list es => beqAll ds es
  | .record ds, .record es => beqAll ds es
  | .variant n d, .variant m e => n == m && beq d e
  | _, _ => false

def beqAll : List Datum → List Datum → Bool
  | [], [] => true
  | d :: ds, e :: es => beq d e && beqAll ds es
  | _, _ => false

end

instance : BEq Datum := ⟨beq⟩

end Scribe.Json.Datum
