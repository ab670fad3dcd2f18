import Scribe.Number.Binary
import Scribe.Text.Digit
import Scribe.Toml.Table

/-!
Reading TOML. Text that breaks a rule of the format gives nothing; which rule is not told.
-/
namespace Scribe.Toml

abbrev Scan := StateT (List Char) Option

def peek : Scan (Option Char) := do return (← get).head?

def nextChar : Scan Char := do
  let c :: cs ← get | failure
  set cs
  return c

def expect (text : String) : Scan Unit := do
  let cs ← get
  if text.toList.isPrefixOf cs then set (cs.drop text.toList.length) else failure

def accept (text : String) : Scan Bool := do
  let cs ← get
  if text.toList.isPrefixOf cs then
    set (cs.drop text.toList.length)
    return true
  else return false

def takeWhile (p : Char → Bool) : Scan (List Char) := do
  let cs ← get
  set (cs.dropWhile p)
  return cs.takeWhile p

def dropBlanks : Scan Unit := do
  let _ ← takeWhile fun c => c == ' ' || c == '\t'

def isPlain (c : Char) : Bool := c == '\t' || (0x20 ≤ c.toNat && c.toNat != 0x7F)

def dropComment : Scan Unit := do
  if ← accept "#" then
    let _ ← takeWhile isPlain

def newline : Scan Unit := do
  let _ ← accept "\r"
  expect "\n"

def dropNewline : Scan Unit := do
  if !(← accept "\r\n") then
    let _ ← accept "\n"

def endOfLine : Scan Unit := do
  dropBlanks
  dropComment
  if (← get).isEmpty then return () else newline

def dropLines : Nat → Scan Unit
  | 0 => failure
  | budget + 1 => do
    dropBlanks
    dropComment
    match ← peek with
    | some '\n' | some '\r' => do
      newline
      dropLines budget
    | _ => return ()

def codePoint (count : Nat) : Scan Char := do
  let cs ← get
  let digits := cs.take count
  guard (digits.length == count)
  let c ← Text.codePoint? digits
  set (cs.drop count)
  return c

def escape : Scan Char := do
  match ← nextChar with
  | 'b' => return '\x08'
  | 't' => return '\t'
  | 'n' => return '\n'
  | 'f' => return '\x0c'
  | 'r' => return '\r'
  | '"' => return '"'
  | '\\' => return '\\'
  | 'u' => codePoint 4
  | 'U' => codePoint 8
  | _ => failure

def basicString : Nat → List Char → Scan String
  | 0, _ => failure
  | budget + 1, done => do
    match ← nextChar with
    | '"' => return String.ofList done.reverse
    | '\\' => basicString budget ((← escape) :: done)
    | c => if isPlain c then basicString budget (c :: done) else failure

def literalString : Scan String := do
  let cs ← takeWhile fun c => c != '\'' && isPlain c
  expect "'"
  return String.ofList cs

/-- Up to two quotes before the three that end a string belong to it. -/
def closingQuotes (quote : Char) (done : List Char) : Scan (Option String) := do
  let run := (← get).takeWhile (· == quote)
  if run.length < 3 then return none
  else if run.length ≤ 5 then
    set ((← get).drop run.length)
    return some (String.ofList (done.reverse ++ List.replicate (run.length - 3) quote))
  else failure

def endsLine (cs : List Char) : Bool :=
  match cs.dropWhile fun c => c == ' ' || c == '\t' with
  | '\n' :: _ | '\r' :: '\n' :: _ => true
  | _ => false

def afterWhite : List Char → List Char
  | ' ' :: cs | '\t' :: cs | '\n' :: cs | '\r' :: '\n' :: cs => afterWhite cs
  | cs => cs

/-- A string of several lines after its opening quotes and the newline that may follow them; however
a line ends, the string has a newline there. In a basic one a backslash at the end of a line joins
the lines. -/
def longString (quote : Char) : Nat → List Char → Scan String
  | 0, _ => failure
  | budget + 1, done => do
    if let some s ← closingQuotes quote done then return s
    match ← nextChar with
    | '\n' => longString quote budget ('\n' :: done)
    | '\r' => do
      expect "\n"
      longString quote budget ('\n' :: done)
    | c =>
      if c == '\\' && quote == '"' then
        if endsLine (← get) then
          modify afterWhite
          longString quote budget done
        else longString quote budget ((← escape) :: done)
      else if isPlain c then longString quote budget (c :: done)
      else failure

def string : Scan String := do
  let budget := (← get).length + 1
  if ← accept "\"\"\"" then
    dropNewline
    longString '"' budget []
  else if ← accept "'''" then
    dropNewline
    longString '\'' budget []
  else if ← accept "\"" then basicString budget []
  else do
    expect "'"
    literalString

def isBare (c : Char) : Bool := c.isAlphanum || c == '_' || c == '-'

def simpleKey : Scan String := do
  let budget := (← get).length + 1
  if ← accept "\"" then basicString budget []
  else if ← accept "'" then literalString
  else
    let cs ← takeWhile isBare
    guard (!cs.isEmpty)
    return String.ofList cs

/-- How many parts a key may have, and how deep arrays and tables in braces may nest. -/
def mostLevels : Nat := 79

/-- A dotted key of at most so many parts: the way to a table, and the last part. -/
def keyUpTo : Nat → Scan (List String × String)
  | 0 => failure
  | parts + 1 => do
    dropBlanks
    let first ← simpleKey
    dropBlanks
    if ← accept "." then
      let (path, last) ← keyUpTo parts
      return (first :: path, last)
    else return ([], first)

def key : Scan (List String × String) := keyUpTo mostLevels

def digitGroups (isDigit : Char → Bool) (cs : List Char) : Option (List Char) :=
  let rec go : Bool → List Char → Option (List Char)
    | digit, [] => if digit then some [] else none
    | digit, c :: cs =>
      if c == '_' then if digit then go false cs else none
      else if isDigit c then (go true cs).map (c :: ·)
      else none
  go false cs

def isOctal (c : Char) : Bool := '0' ≤ c && c ≤ '7'

def isBinaryDigit (c : Char) : Bool := c == '0' || c == '1'

def noLeadingZero (digits : List Char) : Bool :=
  match digits with
  | '0' :: _ :: _ => false
  | _ => true

def inRange (i : Int) : Option Int :=
  if -0x8000000000000000 ≤ i && i < 0x8000000000000000 then some i else none

def decimalInteger? (negative : Bool) (cs : List Char) : Option Int := do
  let digits ← digitGroups Char.isDigit cs
  guard (noLeadingZero digits)
  let n : Int := Text.spell 10 digits
  inRange (if negative then -n else n)

def exponent? : List Char → Option Int
  | c :: cs => do
    guard (c == 'e' || c == 'E')
    let unsigned := match cs with
      | '+' :: cs | '-' :: cs => cs
      | cs => cs
    let n : Int := Text.spell 10 (← digitGroups Char.isDigit unsigned)
    return if cs.head? == some '-' then -n else n
  | [] => none

def float? (cs : List Char) : Option Numeral := do
  let inGroup := fun (c : Char) => c.isDigit || c == '_'
  let whole ← digitGroups Char.isDigit (cs.takeWhile inGroup)
  guard (noLeadingZero whole)
  let n : Numeral := { whole := Text.spell 10 whole }
  match cs.dropWhile inGroup with
  | '.' :: cs =>
    let part ← digitGroups Char.isDigit (cs.takeWhile inGroup)
    let n := { n with fraction := some ⟨part.length, Text.spell 10 part⟩ }
    match cs.dropWhile inGroup with
    | [] => return n
    | cs => return { n with exponent := some (← exponent? cs) }
  | cs => return { n with exponent := some (← exponent? cs) }

/-- A float above zero has to be one that double precision reaches; below zero any will do. -/
def isFloat (negative : Bool) (cs : List Char) : Bool :=
  (float? cs).any fun n => negative || (Binary.ofDecimal .binary64 n.toDecimal).isFinite

/-! Dates and times. -/

def number2? (a b : Char) : Option Nat :=
  if a.isDigit && b.isDigit then some (Text.spell 10 [a, b]) else none

def daysIn (year month : Nat) : Nat :=
  if month == 2 then
    if year % 4 == 0 && (year % 100 != 0 || year % 400 == 0) then 29 else 28
  else if month == 4 || month == 6 || month == 9 || month == 11 then 30
  else 31

def afterDate? : List Char → Option (List Char)
  | y1 :: y2 :: y3 :: y4 :: '-' :: m1 :: m2 :: '-' :: d1 :: d2 :: rest => do
    let year := 100 * (← number2? y1 y2) + (← number2? y3 y4)
    let month ← number2? m1 m2
    let day ← number2? d1 d2
    guard (1 ≤ month && month ≤ 12 && 1 ≤ day && day ≤ daysIn year month)
    return rest
  | _ => none

def afterTime? : List Char → Option (List Char)
  | h1 :: h2 :: ':' :: m1 :: m2 :: ':' :: s1 :: s2 :: rest => do
    guard ((← number2? h1 h2) ≤ 23 && (← number2? m1 m2) ≤ 59 && (← number2? s1 s2) ≤ 60)
    match rest with
    | '.' :: rest =>
      let digits := rest.takeWhile Char.isDigit
      guard (!digits.isEmpty)
      return rest.drop digits.length
    | rest => return rest
  | _ => none

def isOffset : List Char → Bool
  | [] | ['Z'] | ['z'] => true
  | [sign, h1, h2, ':', m1, m2] =>
    (sign == '+' || sign == '-') && (number2? h1 h2).any (· ≤ 23) && (number2? m1 m2).any (· ≤ 59)
  | _ => false

def isMoment (cs : List Char) : Bool :=
  match afterDate? cs with
  | some [] => true
  | some (c :: rest) => (c == 'T' || c == 't' || c == ' ') && (afterTime? rest).any isOffset
  | none => afterTime? cs == some []

def isWordChar (c : Char) : Bool := c.isAlphanum || c == '_' || c == '+' || c == '-' || c == '.' || c == ':'

/-- A scalar written without quotes. A blank between a date and a time belongs to it. -/
def word : Scan Value := do
  let cs ← takeWhile isWordChar
  let cs ← match ← get with
    | ' ' :: c :: rest =>
      if c.isDigit && (afterDate? cs) == some [] then do
        let time := (c :: rest).takeWhile isWordChar
        set ((c :: rest).drop time.length)
        pure (cs ++ ' ' :: time)
      else pure cs
    | _ => pure cs
  let unsigned := match cs with
    | '+' :: cs | '-' :: cs => cs
    | cs => cs
  let based := fun (base : Nat) (isDigit : Char → Bool) (cs : List Char) =>
    ((digitGroups isDigit cs).bind fun digits => inRange (Text.spell base digits)).map Value.integer
  match cs with
  | '0' :: 'x' :: cs => based 16 Text.isHexDigit cs
  | '0' :: 'o' :: cs => based 8 isOctal cs
  | '0' :: 'b' :: cs => based 2 isBinaryDigit cs
  | _ =>
    match decimalInteger? (cs.head? == some '-') unsigned with
    | some i => return .integer i
    | none =>
      guard (cs == "true".toList || cs == "false".toList || unsigned == "inf".toList
        || unsigned == "nan".toList || isFloat (cs.head? == some '-') unsigned || isMoment cs)
      return .other

mutual

/-- A value that nests at most `levels` deep. The budget is more than the steps that the text
allows. -/
def value (levels budget : Nat) : Scan Value := do
  match budget with
  | 0 => failure
  | budget + 1 =>
    match ← peek with
    | some '"' | some '\'' => return .string (← string)
    | some '[' => do
      let _ ← nextChar
      guard (0 < levels)
      return .array (← arrayItems (levels - 1) budget)
    | some '\x7b' => do
      let _ ← nextChar
      guard (0 < levels)
      dropBlanks
      if ← accept "\x7d" then return .inline (.empty .defined)
      else return .inline (← inlineEntries (levels - 1) budget (.empty .defined))
    | _ => word

def arrayItems (levels budget : Nat) : Scan (List Value) := do
  match budget with
  | 0 => failure
  | budget + 1 =>
    dropLines ((← get).length + 1)
    if ← accept "]" then return []
    else
      let v ← value levels budget
      dropLines ((← get).length + 1)
      if ← accept "," then return v :: (← arrayItems levels budget)
      else do
        expect "]"
        return [v]

def inlineEntries (levels budget : Nat) (t : Table) : Scan Table := do
  match budget with
  | 0 => failure
  | budget + 1 =>
    let (path, last) ← key
    expect "="
    dropBlanks
    let v ← value levels budget
    let t ← t.assign path last v
    dropBlanks
    if ← accept "," then inlineEntries levels budget t
    else do
      expect "\x7d"
      return t

end

def statements : Nat → List String → Table → Scan Table
  | 0, _, _ => failure
  | budget + 1, header, t => do
    let size := (← get).length + 1
    dropLines size
    if (← get).isEmpty then return t
    else if ← accept "[[" then
      let (path, last) ← key
      expect "]]"
      endOfLine
      statements budget (path ++ [last]) (← t.append path last)
    else if ← accept "[" then
      let (path, last) ← key
      expect "]"
      endOfLine
      statements budget (path ++ [last]) (← t.define path last)
    else
      let (path, last) ← key
      expect "="
      dropBlanks
      let v ← value mostLevels (2 * size)
      endOfLine
      statements budget header (← t.inside header (·.assign path last v))

def ofText? (text : String) : Option Table :=
  let cs := match text.toList with
    | '\uFEFF' :: cs => cs
    | cs => cs
  (statements (cs.length + 1) [] (.empty .defined) cs).map (·.1)

end Scribe.Toml
