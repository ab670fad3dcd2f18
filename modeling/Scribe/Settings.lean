import Scribe.Model.Codec
import Scribe.Render.Generator
import Scribe.Toml.Reader

/-!
User settings: the layout, the depth limit, and further names that need no import.
-/
namespace Scribe

inductive LineTerminator where
  | lf | crlf
deriving DecidableEq, Repr

namespace LineTerminator

def text : LineTerminator → String
  | lf => "\n"
  | crlf => "\r\n"

def name : LineTerminator → String
  | lf => "lf"
  | crlf => "crlf"

def ofName? : String → Option LineTerminator
  | "lf" => some lf
  | "crlf" => some crlf
  | _ => none

end LineTerminator

structure Settings where
  /-- Spaces per level. -/
  indent : UInt64 := 4
  lineTerminator : LineTerminator := .lf
  maxDepth : UInt64 := .ofNat Generator.defaultMaxDepth
  /-- Packages whose direct members are never imported. -/
  ignorePackages : List String := []
  /-- Patterns for qualified names that are never imported. -/
  ignorePatterns : List String := []
deriving DecidableEq, Repr

namespace Settings

open Json (Datum)

instance : Coded Settings where
  shape := .named .settings
  toDatum s :=
    .record [.size s.indent, .variant s.lineTerminator.name .absent, .size s.maxDepth,
      Datum.ofStrings s.ignorePackages, Datum.ofStrings s.ignorePatterns]
  ofDatum?
    | .record [.size indent, .variant terminator _, .size maxDepth, packages, patterns] => do
      return ⟨indent, ← LineTerminator.ofName? terminator, maxDepth,
        ← Datum.toList? Datum.toString? packages, ← Datum.toList? Datum.toString? patterns⟩
    | _ => none

def count? : Toml.Item → Option UInt64
  | .value (.integer i) => if 0 ≤ i then some (UInt64.ofNat i.toNat) else none
  | _ => none

def strings? : Toml.Item → Option (List String)
  | .value (.array vs) => vs.mapM fun
    | .string s => some s
    | _ => none
  | _ => none

/-- A name, or a table with nothing but that key and nothing in it. -/
def terminator? : Toml.Item → Option LineTerminator
  | .value (.string s) => LineTerminator.ofName? s
  | .value (.inline t) | .table t =>
    match t.entries with
    | [⟨name, .value (.array [])⟩] => LineTerminator.ofName? name
    | [⟨name, .value (.inline t)⟩] | [⟨name, .table t⟩] =>
      if t.entries.isEmpty then LineTerminator.ofName? name else none
    | _ => none
  | _ => none

/-- The value of a key that has the form it should have, or the default without the key. -/
def entry (t : Toml.Table) (key : String) (read : Toml.Item → Option α) (default : α) : Option α :=
  match t.lookup key with
  | some item => read item
  | none => some default

def ofToml? (t : Toml.Table) : Option Settings := do
  let default : Settings := {}
  return {
    indent := ← entry t "indent" count? default.indent
    lineTerminator := ← entry t "line_terminator" terminator? default.lineTerminator
    maxDepth := ← entry t "max_depth" count? default.maxDepth
    ignorePackages := ← entry t "ignore_packages" strings? default.ignorePackages
    ignorePatterns := ← entry t "ignore_patterns" strings? default.ignorePatterns }

/-- The settings that a file spells; keys that mean nothing here are passed over. -/
def ofText? (text : String) : Option Settings := (Toml.ofText? text).bind ofToml?

def format (s : Settings) : Format :=
  (Format.spaces s.indent.toNat).withLineTerminator s.lineTerminator.text

/-- The given patterns, then those of the settings. The error is the first text that is no
pattern. -/
def ignore (s : Settings) (base : List IgnorePattern) : Except String (List IgnorePattern) := do
  let patterns ← s.ignorePatterns.mapM IgnorePattern.ofPattern?
  return base ++ s.ignorePackages.map .members ++ patterns

end Settings

end Scribe
