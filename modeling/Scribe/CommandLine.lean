import Scribe.Java.Binding
import Scribe.Markup.Binding
import Scribe.Model.Validation
import Scribe.Render.Overflow
import Scribe.Settings
import Scribe.Text.Digit

/-!
The command line: its arguments, and what a run makes of a settings file and a model.
-/
namespace Scribe

inductive Target where
  | java | markup
deriving DecidableEq, Repr

namespace Target

def ofName? : String → Option Target
  | "java" => some java
  | "markup" => some markup
  | _ => none

def modelName : Target → String
  | java => "Java model"
  | markup => "markup model"

end Target

inductive FileState where
  | missing
  | unreadable
  | content (text : String)
deriving DecidableEq, Repr

namespace FileState

def required : FileState → FileState
  | missing => unreadable
  | s => s

end FileState

structure Invocation where
  input : String
  target : Target := .java
  config : Option String := none
  indent : Option UInt64 := none
  crlf : Bool := false
deriving DecidableEq, Repr

namespace Invocation

def settingsFile : String := "modelgen/settings.toml"

/-- Options seen so far; each may be given once. -/
structure Options where
  input : Option String := none
  target : Option Target := none
  config : Option String := none
  indent : Option UInt64 := none
  crlf : Bool := false

def count? (text : String) : Option UInt64 := do
  let digits := match text.toList with
    | '+' :: cs => cs
    | cs => cs
  guard (!digits.isEmpty && digits.all Char.isDigit)
  let n := Text.spell 10 digits
  if n < UInt64.size then some (UInt64.ofNat n) else none

namespace Options

def setInput (o : Options) (value : String) : Option Options :=
  if o.input.isSome then none else some { o with input := some value }

def setValue (o : Options) (name value : String) : Option Options := do
  match name with
  | "target" =>
    guard o.target.isNone
    return { o with target := some (← Target.ofName? value) }
  | "config" =>
    guard (o.config.isNone && value != "")
    return { o with config := some value }
  | "indent" =>
    guard o.indent.isNone
    return { o with indent := some (← count? value) }
  | _ => none

def setCrlf (o : Options) : Option Options := if o.crlf then none else some { o with crlf := true }

end Options

/-- Whether an argument is a value and not an option: a dash alone is one. -/
def isValue (arg : String) : Bool :=
  match arg.toList with
  | '-' :: _ :: _ => false
  | _ => true

def splitOption (cs : List Char) : String × Option String :=
  let name := cs.takeWhile (· != '=')
  match cs.drop name.length with
  | [] => (String.ofList name, none)
  | _ :: value => (String.ofList name, some (String.ofList value))

/-- Reads the arguments in turn; after `--` all are values. -/
def readOptions (o : Options) : (onlyValues : Bool) → List String → Option Options
  | _, [] => some o
  | true, arg :: args => do readOptions (← o.setInput arg) true args
  | false, arg :: args =>
    match arg.toList with
    | ['-', '-'] => readOptions o true args
    | '-' :: '-' :: cs =>
      match splitOption cs with
      | ("crlf", none) => do readOptions (← o.setCrlf) false args
      | (name, some value) => do readOptions (← o.setValue name value) false args
      | (name, none) =>
        match args with
        | value :: args => do
          guard (isValue value)
          readOptions (← o.setValue name value) false args
        | [] => none
    | ['-', 't'] =>
      match args with
      | value :: args => do
        guard (isValue value)
        readOptions (← o.setValue "target" value) false args
      | [] => none
    | '-' :: 't' :: '=' :: cs => do
      readOptions (← o.setValue "target" (String.ofList cs)) false args
    | '-' :: 't' :: cs => do readOptions (← o.setValue "target" (String.ofList cs)) false args
    | '-' :: _ :: _ => none
    | _ => do readOptions (← o.setInput arg) false args

def ofArguments? (args : List String) : Option Invocation := do
  let o ← readOptions {} false args
  return { input := ← o.input, target := o.target.getD .java, config := o.config
           indent := o.indent, crlf := o.crlf }

inductive Failure where
  | settings
  | unreadable (path : String)
  | noModel (path : String) (target : Target)
  | invalidModel (path : String) (cause : ModelError)
  | invalidPattern (text : String)
  | overflow
deriving DecidableEq, Repr

namespace Failure

def message : Failure → String
  | settings => "failed to load settings"
  | unreadable path => s!"failed to read {path}"
  | noModel path target => s!"{path} is not a valid {target.modelName}"
  | invalidModel path _ => s!"invalid model in {path}"
  | invalidPattern text => s!"invalid ignore pattern `{text}`"
  | overflow => "capacity overflow"

def cause? : Failure → Option String
  | invalidModel _ cause => some cause.message
  | _ => none

/-- A run that breaks off is told apart from one that refuses its input. -/
def exitCode : Failure → UInt32
  | overflow => 101
  | _ => 1

end Failure

/-- The settings of a run, from the file that the arguments name or else from the user's own file,
which need not be there. -/
def settings (v : Invocation) (config standard : FileState) : Except Failure Settings := do
  let base ← match if v.config.isSome then config.required else standard with
    | .missing => .ok {}
    | .unreadable => .error .settings
    | .content text =>
      match Settings.ofText? text with
      | some s => .ok s
      | none => .error .settings
  return { base with
    indent := v.indent.getD base.indent
    lineTerminator := if v.crlf then .crlf else base.lineTerminator }

def model (v : Invocation) [Coded α] (validate : α → Validity) (text : String) :
    Except Failure α := do
  match Json.decode text with
  | .error _ => .error (.noModel v.input v.target)
  | .ok a =>
    match validate a with
    | .error e => .error (.invalidModel v.input e)
    | .ok () => .ok a

def render (s : Settings) (f : Factory) (ignored : List IgnorePattern) (item : Item) :
    Except Failure String :=
  if !Text.fits s.indent.toNat " " then .error .overflow
  else
    let (g, _) := (Generator.new f { ignored }).run .standard
    let g := (g.withFormat s.format).withMaxDepth s.maxDepth.toNat
    if g.overflows ⟨item, []⟩ then .error .overflow
    else .ok ((g.render ⟨item, []⟩).1.getD "")

/-- The text of a run, given the state of the files it reads: those that the arguments name, and the
user's own settings. -/
def execute (v : Invocation) (config standard input : FileState) : Except Failure String := do
  let s ← v.settings config standard
  let .content text := input | .error (.unreadable v.input)
  match v.target with
  | .java =>
    let file ← v.model File.validate text
    match s.ignore Java.ignorePatterns with
    | .error pattern => .error (.invalidPattern pattern)
    | .ok ignored => render s Java.factory ignored (.file file)
  | .markup =>
    let document ← v.model Document.validate text
    render s Markup.factory [] (.document document)

end Invocation

end Scribe
