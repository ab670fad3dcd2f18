import Scribe.Json.Tree
import Scribe.Number.Scaled
import Scribe.Text.Digit

/-!
The scalars of JSON text: literals, numerals and strings. Each scan gives a tree and the text after
it, or no text when nothing after the flaw can be read.
-/
namespace Scribe.Json

abbrev Rest := Option (List Char)

def stop (why : Break) (lead : Option Lead) : Tree × Rest := (.flawed ⟨why, some why, lead⟩, none)

def isSpace (c : Char) : Bool := c == ' ' || c == '\n' || c == '\t' || c == '\r'

def dropSpace (cs : List Char) : List Char := cs.dropWhile isSpace

def literal (t : Tree) (lead : Lead) : List Char → List Char → Tree × Rest
  | [], cs => (t, some cs)
  | _ :: _, [] => stop .truncated lead
  | c :: letters, d :: cs => if c = d then literal t lead letters cs else stop .malformed lead

/-- A numeral that stops where a digit is needed. Passing over it, the end of the text is no
different from any other character. -/
def digitMissing (cs : List Char) : Tree × Rest :=
  (.flawed ⟨if cs.isEmpty then .truncated else .malformed, some .malformed, some .scalar⟩, none)

/-- No number is kept that is out of the range of doubles. -/
def keepNumeral (n : Numeral) (rest : List Char) : Tree × Rest :=
  if n.toBinary64?.isSome then (.number n, some rest)
  else (.flawed ⟨.malformed, none, some .scalar⟩, some rest)

def exponent (n : Numeral) : List Char → Tree × Rest
  | [] => keepNumeral n []
  | c :: cs =>
    if c == 'e' || c == 'E' then
      let (negative, cs) := match cs with
        | '+' :: cs => (false, cs)
        | '-' :: cs => (true, cs)
        | cs => (false, cs)
      match cs.takeWhile Char.isDigit with
      | [] => digitMissing cs
      | digits =>
        let e : Int := Text.spell 10 digits
        keepNumeral { n with exponent := some (if negative then -e else e) }
          (cs.dropWhile Char.isDigit)
    else keepNumeral n (c :: cs)

def afterWhole (n : Numeral) : List Char → Tree × Rest
  | '.' :: cs =>
    match cs.takeWhile Char.isDigit with
    | [] => digitMissing cs
    | digits =>
      exponent { n with fraction := some ⟨digits.length, Text.spell 10 digits⟩ } (cs.dropWhile Char.isDigit)
  | cs => exponent n cs

/-- A numeral after its sign; a zero is followed by no digit. -/
def unsignedNumeral (negative : Bool) (cs : List Char) : Tree × Rest :=
  match cs.takeWhile Char.isDigit with
  | [] => digitMissing cs
  | '0' :: _ :: _ => stop .malformed (some .scalar)
  | digits => afterWhole { negative, whole := Text.spell 10 digits } (cs.dropWhile Char.isDigit)

def hexUnit? (a b c d : Char) : Option Nat :=
  if [a, b, c, d].all Text.isHexDigit then some (Text.spell 16 [a, b, c, d]) else none

/-- Fewer than four bytes after `\u` end the text; otherwise the escape itself is wrong. -/
def badUnit (cs : List Char) : Break :=
  if (cs.foldl (fun n c => n + c.utf8Size) 0) < 4 then .truncated else .malformed

def escaped? : Char → Option Char
  | '"' => some '"'
  | '\\' => some '\\'
  | '/' => some '/'
  | 'b' => some '\x08'
  | 'f' => some '\x0c'
  | 'n' => some '\n'
  | 'r' => some '\r'
  | 't' => some '\t'
  | _ => none

/-- A string after its opening quote, with units outside the basic plane written as pairs of
surrogates. -/
def keepString (done : List Char) : List Char → Except Break (String × List Char)
  | [] => .error .truncated
  | '"' :: cs => .ok (String.ofList done.reverse, cs)
  | '\\' :: 'u' :: a :: b :: c :: d :: cs =>
    match hexUnit? a b c d with
    | none => .error .malformed
    | some high =>
      if 0xDC00 ≤ high ∧ high ≤ 0xDFFF then .error .malformed
      else if high < 0xD800 ∨ 0xDFFF < high then keepString (Char.ofNat high :: done) cs
      else match cs with
        | [] | ['\\'] => .error .truncated
        | '\\' :: 'u' :: e :: f :: g :: h :: cs =>
          match hexUnit? e f g h with
          | none => .error .malformed
          | some low =>
            if low < 0xDC00 ∨ 0xDFFF < low then .error .malformed
            else
              let point := 0x10000 + 1024 * (high - 0xD800) + (low - 0xDC00)
              keepString (Char.ofNat point :: done) cs
        | '\\' :: 'u' :: cs => .error (badUnit cs)
        | _ => .error .malformed
  | '\\' :: 'u' :: cs => .error (badUnit cs)
  | ['\\'] => .error .truncated
  | '\\' :: e :: cs =>
    match escaped? e with
    | some c => keepString (c :: done) cs
    | none => .error .malformed
  | c :: cs => if c.toNat < 0x20 then .error .malformed else keepString (c :: done) cs

def skipString : List Char → Except Break (List Char)
  | [] => .error .truncated
  | '"' :: cs => .ok cs
  | '\\' :: 'u' :: a :: b :: c :: d :: cs =>
    if (hexUnit? a b c d).isSome then skipString cs else .error .malformed
  | '\\' :: 'u' :: cs => .error (badUnit cs)
  | ['\\'] => .error .truncated
  | '\\' :: e :: cs => if (escaped? e).isSome then skipString cs else .error .malformed
  | c :: cs => if c.toNat < 0x20 then .error .malformed else skipString cs

def string (cs : List Char) : Except Flaw String × Rest :=
  match keepString [] cs with
  | .ok (s, rest) => (.ok s, some rest)
  | .error kept =>
    match skipString cs with
    | .ok rest => (.error ⟨kept, none, some .string⟩, some rest)
    | .error skipped => (.error ⟨kept, some skipped, some .string⟩, none)

end Scribe.Json
