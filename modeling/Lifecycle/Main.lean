import Lifecycle.CommandLine.Run

/-!
# The program

The command line on the files of the system.
-/

namespace Lifecycle

/-- A fault that the system reported. -/
def FileFault.ofError (error : IO.Error) : FileFault :=
  match error with
  | .noFileOrDirectory _ _ _ => .noEntry
  | .alreadyExists _ _ _ => .exists
  | .inappropriateType _ 20 _ => .notDirectory
  | .inappropriateType _ 21 _ => .isDirectory
  | .invalidArgument _ 36 _ => .nameTooLong
  | e => .other (toString e)

/-- The outcome of an access to the system's files. -/
def attempt (action : IO α) : IO (Except FileFault α) := do
  match ← action.toBaseIO with
  | .ok a => pure (.ok a)
  | .error e => pure (.error (.ofError e))

instance : Files IO where
  read path := do
    match ← attempt (IO.FS.readBinFile path) with
    | .error fault => pure (.error fault)
    | .ok content =>
      match String.fromUTF8? content with
      | some text => pure (.ok text)
      | none => pure (.error .notText)
  makeDirectories path := attempt (IO.FS.createDirAll path)
  write path text := attempt (IO.FS.writeFile path text)

end Lifecycle

def main (arguments : List String) : IO UInt32 := do
  let stdout ← IO.getStdout
  let colours := Lifecycle.CommandLine.wantsColours (← IO.getEnv "CLICOLOR_FORCE")
    (← IO.getEnv "NO_COLOR") (← IO.getEnv "CLICOLOR") (← stdout.isTty)
  let run : IO Lifecycle.CommandLine.Outcome := Lifecycle.CommandLine.run colours arguments
  let outcome ← run
  stdout.putStr outcome.stdout
  (← IO.getStderr).putStr outcome.stderr
  pure outcome.status.toUInt32
