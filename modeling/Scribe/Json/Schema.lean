import Scribe.Json.Tree
import Scribe.Number.Scaled
import Scribe.Number.Shortest

/-!
Data described by a schema, read from and written to JSON trees. A schema names its records and
choices, so that they may contain each other. Reading walks the tree once from left to right and
reports the first thing that is wrong in that order; writing leaves out what reading fills in.
-/
namespace Scribe.Json

inductive ReadError where
  | malformed
  | truncated
  | missingField (name : String)
  | duplicateField (name : String)
  | unknownVariant (name : String)
  | invalidType
  | invalidValue
  | invalidLength
  | noMatch (label : String)
deriving DecidableEq, Repr

namespace ReadError

def ofBreak : Break → ReadError
  | .malformed => .malformed
  | .truncated => .truncated

/-- The text of an error about the data; an error of the JSON itself has none. -/
def message? : ReadError → Option String
  | malformed | truncated => none
  | missingField f => some s!"missing field `{f}`"
  | duplicateField f => some s!"duplicate field `{f}`"
  | unknownVariant v => some s!"unknown variant `{v}`"
  | invalidType => some "invalid type"
  | invalidValue => some "invalid value"
  | invalidLength => some "invalid length"
  | noMatch label => some s!"data did not match any variant of untagged enum {label}"

end ReadError

inductive Datum where
  | string (s : String)
  | bool (b : Bool)
  | size (n : UInt64)
  | integer (i : Int64)
  | binary32 (x : Binary32)
  | binary64 (x : Binary64)
  /-- An optional field without a value, and the content of a variant that has none. -/
  | absent
  | list (items : List Datum)
  /-- The fields of a record, all of them, in the order of the schema. -/
  | record (fields : List Datum)
  | variant (name : String) (content : Datum)

namespace Datum

/-- The defaults that a sparse field leaves unwritten. -/
def isBlank : Datum → Bool
  | .list [] => true
  | .size n => n == 0
  | _ => false

end Datum

inductive Shape (N : Type) where
  | string | bool | size | integer | binary32 | binary64
  | list (item : Shape N)
  | named (name : N)

inductive Presence where
  | required
  /-- May be missing or null. -/
  | optional
  /-- May be missing, and is always written. -/
  | defaulted (value : Datum)
  /-- May be missing, and is not written when blank. -/
  | sparse (value : Datum)

def Presence.default? : Presence → Option Datum
  | required => none
  | optional => some .absent
  | defaulted d | sparse d => some d

structure Field (N : Type) where
  name : String
  shape : Shape N
  presence : Presence := .required

structure Variant (N : Type) where
  name : String
  content : Option (Shape N) := none

inductive Description (N : Type) where
  /-- An object, or the array of the fields in their order. -/
  | record (fields : List (Field N))
  /-- The name of a variant, or an object whose only key is that name. -/
  | choice (variants : List (Variant N))
  /-- An object, or a string for its first field. -/
  | shorthand (label : String) (fields : List (Field N))
  /-- What `shorthand` accepts, or failing that what `record` accepts. -/
  | either (label first second : String) (short long : List (Field N))

abbrev Schema (N : Type) := N → Description N

def mismatch : Tree → ReadError
  | .flawed f =>
    if f.lead = some .array ∨ f.lead = some .object then .invalidType else .ofBreak f.kept
  | _ => .invalidType

def check (b : Option Break) : Except ReadError Unit :=
  match b with
  | some b => .error (.ofBreak b)
  | none => .ok ()

/-- The greatest number that is read as an integer; numerals beyond it are read as fractions. -/
def maxInteger : Int := 0xFFFFFFFFFFFFFFFF

def minInteger : Int := -0x8000000000000000

/-- The value of a numeral that is read as an integer; a negative zero is not. -/
def integer? (n : Numeral) : Option Int :=
  let i := n.integer
  if n.isInteger && minInteger ≤ i && i ≤ maxInteger && !(n.negative && n.whole == 0) then some i
  else none

def readSize (n : Numeral) : Except ReadError Datum :=
  match integer? n with
  | none => .error .invalidType
  | some i => if i < 0 then .error .invalidValue else .ok (.size (UInt64.ofNat i.toNat))

def readInteger (n : Numeral) : Except ReadError Datum :=
  match integer? n with
  | none => .error .invalidType
  | some i => if 0x8000000000000000 ≤ i then .error .invalidValue else .ok (.integer (Int64.ofInt i))

def readBinary64 (n : Numeral) : Except ReadError Binary64 :=
  match n.toBinary64? with
  | some x => .ok x
  | none => .error .malformed

/-- Integers go straight to the nearest short float, other numerals by way of a double. -/
def readBinary32 (n : Numeral) : Except ReadError Binary32 :=
  match integer? n with
  | some _ => .ok (.ofDecimal _ n.toDecimal)
  | none => (readBinary64 n).map (·.convert _)

def scalar (s : Shape N) (t : Tree) : Except ReadError Datum :=
  match s, t with
  | .string, .string s => .ok (.string s)
  | .bool, .bool b => .ok (.bool b)
  | .size, .number n => readSize n
  | .integer, .number n => readInteger n
  | .binary32, .number n => (readBinary32 n).map .binary32
  | .binary64, .number n => (readBinary64 n).map .binary64
  | _, t => .error (mismatch t)

def assemble (found : List (String × Datum)) : List (Field N) → Except ReadError (List Datum)
  | [] => .ok []
  | f :: fs =>
    match (found.lookup f.name).or f.presence.default? with
    | some d => (assemble found fs).map (d :: ·)
    | none => .error (.missingField f.name)

def fill : List (Field N) → Except ReadError (List Datum)
  | [] => .ok []
  | f :: fs =>
    match f.presence.default? with
    | some d => (fill fs).map (d :: ·)
    | none => .error .invalidLength

def ofShorthand (label s : String) : List (Field N) → Except ReadError (List Datum)
  | [] => .error (.noMatch label)
  | _ :: fs =>
    match fill fs with
    | .ok ds => .ok (.string s :: ds)
    | .error _ => .error (.noMatch label)

/-- The end of a choice written as an object, which has one member. -/
def closeChoice (others : List Member) (close : Close) : Except ReadError Unit :=
  match others, close with
  | [], .closed => .ok ()
  | [], .broken why => .error (.ofBreak why)
  | _, _ => .error .malformed

variable {N : Type} (schema : Schema N)

mutual

def read (s : Shape N) : Tree → Except ReadError Datum
  | .array items close =>
    match s with
    | .list item => do
      let ds ← readItems item items
      check close.break?
      return .list ds
    | .named n =>
      match schema n with
      | .record fields => (readPositions fields items close).map .record
      | .choice _ => .error .malformed
      | .shorthand label _ => do
        check (Tree.array items close).keepBreak?
        .error (.noMatch label)
      | .either label _ second _ long => do
        check (Tree.array items close).keepBreak?
        match readPositions long items close with
        | .ok ds => return .variant second (.record ds)
        | .error _ => .error (.noMatch label)
    | _ => .error .invalidType
  | .object members close =>
    match s with
    | .named n =>
      match schema n with
      | .record fields => (readMembers fields [] members close).map .record
      | .choice variants =>
        match members with
        | [] =>
          match close with
          | .closed => .error .malformed
          | .broken why | .noKey why => .error (.ofBreak why)
        | ⟨.error f, _⟩ :: _ => .error (.ofBreak f.kept)
        | ⟨.ok name, value⟩ :: others =>
          match variants.find? (·.name == name) with
          | none => .error (.unknownVariant name)
          | some ⟨_, none⟩ => do
            let .null := value | .error (mismatch value)
            closeChoice others close
            return .variant name .absent
          | some ⟨_, some content⟩ => do
            let d ← read content value
            closeChoice others close
            return .variant name d
      | .shorthand label fields => do
        check (Tree.object members close).keepBreak?
        match readMembers fields [] members close with
        | .ok ds => return .record ds
        | .error _ => .error (.noMatch label)
      | .either label first second short long => do
        check (Tree.object members close).keepBreak?
        match readMembers short [] members close with
        | .ok ds => return .variant first (.record ds)
        | .error _ =>
          match readMembers long [] members close with
          | .ok ds => return .variant second (.record ds)
          | .error _ => .error (.noMatch label)
    | _ => .error .invalidType
  | .flawed f =>
    match s with
    | .list _ => .error (if f.lead = some .object then .invalidType else .ofBreak f.kept)
    | .named n =>
      match schema n with
      | .choice _ =>
        .error (if f.lead = some .null ∨ f.lead = some .scalar then .malformed else .ofBreak f.kept)
      | _ => .error (.ofBreak f.kept)
    | _ => .error (mismatch (.flawed f))
  | t =>
    match s with
    | .named n =>
      match schema n, t with
      | .record _, _ => .error .invalidType
      | .choice variants, .string name =>
        match variants.find? (·.name == name) with
        | none => .error (.unknownVariant name)
        | some ⟨_, none⟩ => .ok (.variant name .absent)
        | some ⟨_, some _⟩ => .error .invalidType
      | .choice _, _ => .error .malformed
      | .shorthand label fields, .string s => (ofShorthand label s fields).map .record
      | .either label first _ short _, .string s =>
        (ofShorthand label s short).map fun ds => .variant first (.record ds)
      | .shorthand label _, _ | .either label _ _ _ _, _ => .error (.noMatch label)
    | s => scalar s t

def readItems (s : Shape N) : List Tree → Except ReadError (List Datum)
  | [] => .ok []
  | t :: ts => do return (← read s t) :: (← readItems s ts)

/-- A record written as an array. A further item means a comma after the last field. -/
def readPositions (fields : List (Field N)) (items : List Tree) (close : Close) :
    Except ReadError (List Datum) :=
  match items, fields with
  | [], fields => do
    check close.break?
    fill fields
  | _ :: _, [] => .error .malformed
  | t :: ts, f :: fs => do
    let d ← match f.presence, t with
      | .optional, .null => .ok .absent
      | .optional, .flawed ⟨kept, _, some .null⟩ => .error (.ofBreak kept)
      | _, t => read f.shape t
    return d :: (← readPositions fs ts close)

def readMembers (fields : List (Field N)) (found : List (String × Datum)) (members : List Member)
    (close : Close) : Except ReadError (List Datum) :=
  match members with
  | [] => do
    check close.break?
    assemble found fields
  | ⟨.error f, _⟩ :: _ => .error (.ofBreak f.kept)
  | ⟨.ok key, value⟩ :: ms =>
    match fields.find? (·.name == key) with
    | none => do
      check value.skipBreak?
      readMembers fields found ms close
    | some f =>
      if (found.lookup key).isSome then .error (.duplicateField key)
      else do
        let d ← match f.presence, value with
          | .optional, .null => .ok .absent
          | .optional, .flawed ⟨kept, _, some .null⟩ => .error (.ofBreak kept)
          | _, value => read f.shape value
        readMembers fields ((key, d) :: found) ms close

end

/-- Doubles have an exponent from `1e16` on and below `1e-5`. -/
def style64 : NumeralStyle := ⟨-4, 16⟩

/-- Short floats have an exponent from `1e13` on and below `1e-6`. -/
def style32 : NumeralStyle := ⟨-5, 13⟩

/-- JSON has no way to write infinity. -/
def writeBinary (style : NumeralStyle) (x : Binary l) : Tree :=
  if x.isFinite then .number (x.toNumeral style .even) else .null

mutual

def write (s : Shape N) : Datum → Tree
  | .string v => .string v
  | .bool b => .bool b
  | .size n => .number (.ofInt n.toNat)
  | .integer i => .number (.ofInt i.toInt)
  | .binary32 x => writeBinary style32 x
  | .binary64 x => writeBinary style64 x
  | .absent => .null
  | .list ds =>
    match s with
    | .list item => .list (writeItems item ds)
    | _ => .null
  | .record ds =>
    match s with
    | .named n =>
      match schema n with
      | .record fields | .shorthand _ fields => .object (writeFields fields ds) .closed
      | _ => .null
    | _ => .null
  | .variant name content =>
    match s with
    | .named n =>
      match schema n with
      | .choice variants =>
        match variants.find? (·.name == name) with
        | some ⟨_, some s⟩ => .record [(name, write s content)]
        | _ => .string name
      | .either _ first _ short long =>
        match content with
        | .record ds => .object (writeFields (if name = first then short else long) ds) .closed
        | _ => .null
      | _ => .null
    | _ => .null

def writeItems (s : Shape N) : List Datum → List Tree
  | [] => []
  | d :: ds => write s d :: writeItems s ds

def writeFields (fields : List (Field N)) : List Datum → List Member
  | [] => []
  | d :: ds =>
    match fields with
    | [] => []
    | f :: fs =>
      match f.presence, d with
      | .optional, .absent => writeFields fs ds
      | .sparse _, d =>
        if d.isBlank then writeFields fs ds else ⟨.ok f.name, write f.shape d⟩ :: writeFields fs ds
      | _, d => ⟨.ok f.name, write f.shape d⟩ :: writeFields fs ds

end

end Scribe.Json
