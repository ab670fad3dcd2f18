import Scribe.CommandLine

/-!
The program: reads the files that the arguments name and prints the rendered model.
-/
open Scribe

def lookUp (path : String) : IO FileState := do
  try
    return .content (← IO.FS.readFile path)
  catch
    | .noFileOrDirectory .. | .inappropriateType .. => return .missing
    | _ => return .unreadable

def configDirectory : IO (Option String) := do
  match ← IO.getEnv "XDG_CONFIG_HOME" with
  | some directory =>
    if directory.startsWith "/" then return some directory
  | none => pure ()
  return (← IO.getEnv "HOME").map (· ++ "/.config")

def main (args : List String) : IO UInt32 := do
  let some v := Invocation.ofArguments? args
    | IO.eprintln "usage: [--target java|markup] [--config FILE] [--indent N] [--crlf] INPUT"
      return 2
  let config ← (v.config.mapM lookUp : IO (Option FileState))
  let standard ← (← configDirectory).mapM fun d => lookUp (d ++ "/" ++ Invocation.settingsFile)
  let input ← lookUp v.input
  match v.execute (config.getD .missing) (standard.getD .missing) input with
  | .ok text =>
    IO.print text
    return 0
  | .error e =>
    IO.eprintln ("Error: " ++ e.message)
    if let some cause := e.cause? then IO.eprintln ("\nCaused by:\n    " ++ cause)
    return e.exitCode
