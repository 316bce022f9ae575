import Lifecycle.Json.Fault
import Lifecycle.Yaml.Fault

/-!
# Failures

What can go wrong between reading a service description and writing artifacts, as causes;
`Failure.message` puts them into words. Failures are grouped into kinds by the step that fails.
-/

namespace Lifecycle

/-- Why a file or a directory could not be read or written. -/
inductive FileFault
  | noEntry
  | exists
  | notDirectory
  | isDirectory
  | nameTooLong
  /-- a name holds a null character -/
  | nullInName
  /-- a file is no text -/
  | notText
  | other (message : String)
deriving DecidableEq, Repr

def FileFault.message : FileFault → String
  | .noEntry => "No such file or directory (os error 2)"
  | .exists => "File exists (os error 17)"
  | .notDirectory => "Not a directory (os error 20)"
  | .isDirectory => "Is a directory (os error 21)"
  | .nameTooLong => "File name too long (os error 36)"
  | .nullInName => "file name contained an unexpected NUL byte"
  | .notText => "stream did not contain valid UTF-8"
  | .other message => message

/-- The steps that can fail. -/
inductive FailureKind
  | parse
  | generation
  | json
  | yaml
deriving DecidableEq, Repr

inductive Failure
  | serviceUnreadable (path : String) (fault : FileFault)
  | serviceJson (fault : Json.Fault)
  | serviceYaml (fault : Yaml.Fault)
  | settingsUnreadable (path : String) (fault : FileFault)
  | settingsFile (path : String) (fault : Yaml.Fault)
  | settingsText (fault : Yaml.Fault)
  | data (fault : Json.Fault)
  /-- a directory for something could not be made -/
  | directory (purpose : String) (fault : FileFault)
  | unwritten (path : String) (fault : FileFault)

namespace Failure

def kind : Failure → FailureKind
  | .serviceUnreadable _ _ => .parse
  | .serviceJson _ => .parse
  | .serviceYaml _ => .parse
  | .settingsUnreadable _ _ => .parse
  | .settingsFile _ _ => .parse
  | .settingsText _ => .yaml
  | .data _ => .json
  | .directory _ _ => .generation
  | .unwritten _ _ => .generation

/-- What was going on when a failure came about. -/
def detail : Failure → String
  | .serviceUnreadable path fault =>
    "Failed to read code model file " ++ path ++ ": " ++ fault.message
  | .serviceJson fault => "Failed to parse code model JSON: " ++ fault.message
  | .serviceYaml fault => "Failed to parse code model YAML: " ++ fault.message
  | .settingsUnreadable path fault =>
    "Failed to read settings file " ++ Text.quoted path ++ ": " ++ fault.message
  | .settingsFile path fault =>
    "Failed to parse settings YAML from " ++ Text.quoted path ++ ": YAML error: " ++ fault.message
  | .settingsText fault => fault.message
  | .data fault => fault.message
  | .directory purpose fault => "Failed to create " ++ purpose ++ " directory: " ++ fault.message
  | .unwritten path fault => "Failed to write " ++ path ++ ": " ++ fault.message

def message (f : Failure) : String :=
  (match f.kind with
    | .parse => "Parse error: "
    | .generation => "Generation error: "
    | .json => "JSON error: "
    | .yaml => "YAML error: ") ++ f.detail

end Failure

end Lifecycle
