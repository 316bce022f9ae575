import Lifecycle.Assembly
import Lifecycle.File.Storage
import Lifecycle.Json.Reader
import Lifecycle.Json.Take
import Lifecycle.Service.Decode
import Lifecycle.Yaml.Take

/-!
# Loading

Service descriptions and settings from texts and from files. A service description is JSON unless
its file has an extension for YAML; settings are YAML.
-/

namespace Lifecycle

def Service.ofJson (text : String) : Except Failure Service :=
  (Json.ofText Service.read text).mapError .serviceJson

def Service.ofYaml (text : String) : Except Failure Service :=
  (Yaml.ofText Service.read text).mapError .serviceYaml

def Settings.ofYaml (text : String) : Except Failure Settings :=
  (Yaml.ofText Settings.read text).mapError .settingsText

def yamlExtensions : List String := ["yaml", "yml"]

section

variable {m : Type → Type} [Monad m] [Files m]

def Service.load (path : String) : m (Except Failure Service) := do
  match ← Files.read path with
  | .error fault => pure (.error (.serviceUnreadable path fault))
  | .ok text =>
    pure (if Path.hasExtension yamlExtensions path then ofYaml text else ofJson text)

def Settings.load (path : String) : m (Except Failure Settings) := do
  match ← Files.read path with
  | .error fault => pure (.error (.settingsUnreadable path fault))
  | .ok text => pure ((Yaml.ofText Settings.read text).mapError (.settingsFile path))

end

end Lifecycle
