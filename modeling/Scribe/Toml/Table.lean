/-!
TOML tables and how statements build them. A table is defined once: by a header, by dotted keys, or
in passing by a header further in, after which its own header may still follow.
-/
namespace Scribe.Toml

inductive Origin where
  /-- By its own header, or in braces. -/
  | defined
  /-- By a header further in. -/
  | passed
  /-- By dotted keys. -/
  | dotted
deriving DecidableEq, Repr

mutual

inductive Value where
  | string (s : String)
  | integer (i : Int)
  /-- Floats, truth values, dates and times, which only have to be well formed. -/
  | other
  | array (items : List Value)
  | inline (table : Table)

inductive Item where
  | value (v : Value)
  | table (t : Table)
  | tables (ts : List Table)

inductive Table where
  | mk (origin : Origin) (entries : List Entry)

inductive Entry where
  | mk (key : String) (item : Item)

end

namespace Entry

def key : Entry → String
  | ⟨key, _⟩ => key

def item : Entry → Item
  | ⟨_, item⟩ => item

end Entry

namespace Table

def empty (o : Origin) : Table := ⟨o, []⟩

def origin : Table → Origin
  | ⟨origin, _⟩ => origin

def entries : Table → List Entry
  | ⟨_, entries⟩ => entries

def lookup (t : Table) (key : String) : Option Item := (t.entries.find? (·.key == key)).map (·.item)

def put (t : Table) (key : String) (item : Item) : Table :=
  ⟨t.origin, ⟨key, item⟩ :: t.entries.filter (·.key != key)⟩

/-- Changes the table at the end of a path, making those that are missing. Dotted keys go through
no table that has its own header or braces; of an array of tables the last one is meant. -/
def modifyAt (dotted : Bool) (f : Table → Option Table) : List String → Table → Option Table
  | [], t => f t
  | key :: path, t => do
    match t.lookup key with
    | none =>
      let made ← modifyAt dotted f path (empty (if dotted then .dotted else .passed))
      return t.put key (.table made)
    | some (.table inner) =>
      if dotted && inner.origin == .defined then none
      else return t.put key (.table (← modifyAt dotted f path inner))
    | some (.tables ts) =>
      match ts.reverse with
      | [] => none
      | last :: others =>
        return t.put key (.tables (others.reverse ++ [← modifyAt dotted f path last]))
    | some (.value _) => none

/-- `[path]`: defines a table that no header and no dotted key has defined. -/
def define (path : List String) (last : String) : Table → Option Table :=
  modifyAt false (fun t =>
    match t.lookup last with
    | none => some (t.put last (.table (empty .defined)))
    | some (.table ⟨.passed, entries⟩) => some (t.put last (.table ⟨.defined, entries⟩))
    | some _ => none) path

/-- `[[path]]`: one more table of an array of tables. -/
def append (path : List String) (last : String) : Table → Option Table :=
  modifyAt false (fun t =>
    match t.lookup last with
    | none => some (t.put last (.tables [empty .defined]))
    | some (.tables ts) => some (t.put last (.tables (ts ++ [empty .defined])))
    | some _ => none) path

/-- `path.last = value`: a new key, in the table itself or in one that dotted keys made. -/
def assign (path : List String) (last : String) (v : Value) : Table → Option Table :=
  modifyAt true (fun t =>
    if !path.isEmpty && t.origin != .dotted then none
    else
      match t.lookup last with
      | none => some (t.put last (.value v))
      | some _ => none) path

def inside (header : List String) (f : Table → Option Table) : Table → Option Table :=
  modifyAt false f header

end Table

end Scribe.Toml
