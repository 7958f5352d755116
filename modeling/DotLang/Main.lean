import DotLang.Tool.Format

/-!
# The command line

The formatter as a program. It reads the one input that it is asked for, does
what `Options.plan` says, and writes.
-/

namespace DotLang

/-- The wording of a failure of the file system. -/
def fileMessage : IO.Error → String
  | .noFileOrDirectory .. => "No such file or directory (os error 2)"
  | .inappropriateType _ 21 _ => "Is a directory (os error 21)"
  | .inappropriateType .. => "Not a directory (os error 20)"
  | .invalidArgument _ 22 _ => "file name contained an unexpected NUL byte"
  | .invalidArgument .. => "File name too long (os error 36)"
  | e => toString e

/-- Reads all of the standard input. -/
partial def readAll (stream : IO.FS.Stream) (bytes : ByteArray) : IO ByteArray := do
  let more ← stream.read 65536
  if more.isEmpty then return bytes else readAll stream (bytes ++ more)

/-- Reads the input of a run. -/
def readInput (path : String) : IO (Except ReadError String) := do
  try
    let bytes ← if path = "-" then readAll (← IO.getStdin) .empty else IO.FS.readBinFile path
    return readText bytes
  catch e => return .error (.failed (fileMessage e))

/-- Does what the options ask for. -/
def perform (o : Options) : IO UInt32 := do
  let plan := o.plan (← readInput o.input)
  IO.eprint (o.visible plan.log)
  match plan.graph, o.output with
  | none, _ => return plan.exit.toUInt32
  | some g, none =>
    IO.println g.display
    return plan.exit.toUInt32
  | some g, some path =>
    try
      IO.FS.writeFile path (g.display ++ "\n")
      IO.eprint (o.visible [savedRecord path])
      return plan.exit.toUInt32
    catch e =>
      IO.eprint (o.visible (unsavedLog (fileMessage e)))
      return 1

end DotLang

/-- The formatter. -/
def main (args : List String) : IO UInt32 := do
  match DotLang.Options.ofArgs args with
  | .error e =>
    IO.eprintln s!"error: {e.message}"
    return 2
  | .ok .version =>
    IO.print DotLang.versionText
    return 0
  | .ok (.format o) => DotLang.perform o
