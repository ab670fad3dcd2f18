import Scribe.Json.Tree

/-!
Writing a tree as compact JSON: no space, members in their order, and only those characters escaped
that have to be.
-/
namespace Scribe.Json

def hexDigit (n : Nat) : Char := if n < 10 then Char.ofNat (48 + n) else Char.ofNat (87 + n)

def escape (c : Char) : List Char :=
  match c with
  | '"' => ['\\', '"']
  | '\\' => ['\\', '\\']
  | '\x08' => ['\\', 'b']
  | '\x0c' => ['\\', 'f']
  | '\n' => ['\\', 'n']
  | '\r' => ['\\', 'r']
  | '\t' => ['\\', 't']
  | c =>
    if c.toNat < 0x20 then ['\\', 'u', '0', '0', hexDigit (c.toNat / 16), hexDigit (c.toNat % 16)]
    else [c]

def quote (s : String) : String := "\"" ++ String.ofList (s.toList.flatMap escape) ++ "\""

namespace Tree

mutual

/-- The text of a tree; a flaw has none. -/
def toText : Tree → String
  | .null => "null"
  | .bool true => "true"
  | .bool false => "false"
  | .number n => n.toText "+"
  | .string s => quote s
  | .array items _ => "[" ++ ",".intercalate (itemTexts items) ++ "]"
  | .object members _ => "\x7b" ++ ",".intercalate (memberTexts members) ++ "\x7d"
  | .flawed _ => ""

def itemTexts : List Tree → List String
  | [] => []
  | t :: ts => t.toText :: itemTexts ts

def memberTexts : List Member → List String
  | [] => []
  | ⟨key, value⟩ :: ms =>
    let name := match key with
      | .ok s => quote s
      | .error _ => ""
    (name ++ ":" ++ value.toText) :: memberTexts ms

end

end Tree

end Scribe.Json
