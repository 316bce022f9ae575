import Lifecycle.Artifact
import Lifecycle.CommandLine.Arguments
import Lifecycle.Load

/-!
# Running the command line

A run reads the service description, classifies its resources, and shows them or writes artifacts.
What it prints can be coloured. A run that fails says what it was at and why.
-/

namespace Lifecycle.CommandLine

/-- What a run leaves behind, files apart. -/
structure Outcome where
  status : Nat
  stdout : String
  stderr : String

/-! ### Colours -/

/-- Ways to set a text off. -/
inductive Style
  | bold
  | dimmed
  | cyan
  | yellow
  | boldGreen

/-- The codes under which terminals know a style. -/
def Style.codes : Style → String
  | .bold => "1"
  | .dimmed => "2"
  | .cyan => "36"
  | .yellow => "33"
  | .boldGreen => "1;32"

/-- The sequence that ends all styles. -/
def reset : List Char := ['\x1b', '[', '0', 'm']

/-- A text with the start of a style after each end of all styles in it. -/
def restyle (start : List Char) : List Char → List Char
  | [] => []
  | '\x1b' :: '[' :: '0' :: 'm' :: rest => reset ++ start ++ restyle start rest
  | c :: rest => c :: restyle start rest

def styled (colours : Bool) (style : Style) (text : String) : String :=
  if colours then
    let start := ['\x1b', '['] ++ style.codes.toList ++ ['m']
    String.ofList (start ++ restyle start text.toList ++ reset)
  else text

/-- Whether to colour what is printed: always or never if the environment says so, else on
terminals. -/
def wantsColours (force never ask : Option String) (terminal : Bool) : Bool :=
  if force.any (· != "0") then true
  else if never.isSome then false
  else ask.all (· != "0") && terminal

/-! ### What is shown -/

/-- An arrow before what is done next. -/
def progress (colours : Bool) (text : String) : String :=
  styled colours .cyan "→" ++ " " ++ text ++ "\n"

def loadingLine (colours : Bool) (path : String) : String :=
  progress colours ("Loading code model: " ++ path)

/-- A letter for each phase that is bound. -/
def lifecycleFlags (r : ResourceReport) : String :=
  let flag (letter : String) (phase : Option OperationReport) : String :=
    if phase.isSome then letter else ""
  flag "C" r.create ++ flag "R" r.refresh ++ flag "U" r.update ++ flag "D" r.delete

/-- A resource in the overview; when verbose, with its chain of definition and its actions. -/
def resourceLines (colours verbose : Bool) (r : ResourceReport) : String :=
  "  • " ++ styled colours .cyan r.name ++ " [" ++ r.category.display ++ "] (" ++ lifecycleFlags r
    ++ ")\n"
    ++ (match r.define with
      | some define =>
        if verbose then
          "    " ++ define.name ++ " → "
            ++ String.intercalate " → " (r.definitionStages.filterMap (·.setter)) ++ "\n"
        else ""
      | none => "")
    ++ (if verbose && !r.actions.isEmpty then
        "    Actions: " ++ String.intercalate ", " r.actions ++ "\n"
      else "")

/-- A collection in the overview; when verbose, with its extra methods. -/
def collectionLines (colours verbose : Bool) (c : CollectionReport) : String :=
  "\n" ++ styled colours .bold c.name ++ "\n"
    ++ String.join (c.resources.map (resourceLines colours verbose))
    ++ (if verbose then
        String.join (c.extraMethods.map fun m =>
          "  + " ++ styled colours .dimmed m.signature ++ "\n")
      else "")

def overview (colours verbose : Bool) (r : Report) : String :=
  "\n" ++ styled colours .boldGreen "✓ Classification successful!" ++ "\n"
    ++ "  Client: " ++ styled colours .yellow r.name ++ "\n"
    ++ "  Collections: " ++ toString r.collections.length ++ "\n"
    ++ "  Resources: " ++ toString r.resourceCount ++ "\n"
    ++ String.join (r.collections.map (collectionLines colours verbose))

/-- A line on a directory of artifacts, unless it is empty. -/
def directoryLine (output name : String) (count : Nat) : String :=
  if count == 0 then ""
  else "  📁 " ++ output ++ "/" ++ name ++ " (" ++ toString count ++ " files)\n"

def summaryLines (colours : Bool) (output : String) (s : Summary) : String :=
  "\n" ++ styled colours .boldGreen "✓ Generation complete!" ++ "\n"
    ++ "\n" ++ styled colours .bold "Generated files:" ++ "\n"
    ++ "  📄 " ++ output ++ "/resources.json\n"
    ++ "  📄 " ++ output ++ "/RESOURCES.md\n"
    ++ directoryLine output "samples" s.samples ++ directoryLine output "mock-tests" s.tests
    ++ "\n  Resources: " ++ styled colours .yellow (toString s.resources) ++ "\n"

/-- A text whose further lines are indented. -/
def indentLines (text : String) : String :=
  String.intercalate "\n    " ((Text.pieces '\n' text.toList).map String.ofList)

/-- A run that failed at something, after it has printed some output. -/
def failed (printed activity : String) (failure : Failure) : Outcome :=
  ⟨1, printed, "Error: Failed to " ++ activity ++ "\n\nCaused by:\n    "
    ++ indentLines failure.message ++ "\n"⟩

def succeeded (printed : String) : Outcome := ⟨0, printed, ""⟩

def flagText (flag : Bool) : String := if flag then "true" else "false"

/-! ### Commands -/

section

variable {m : Type → Type} [Monad m] [Files m]

/-- Classify the resources of a service and show them. -/
def classify (colours : Bool) (i : Invocation) (settings : Settings) : m Outcome := do
  let printed :=
    (if settings.fluentLite then ""
      else styled colours .yellow "!" ++ " Fluent lite mode is off, resources are not classified\n")
    ++ loadingLine colours i.model
  match ← Service.load i.model with
  | .error failure => pure (failed printed "load code model" failure)
  | .ok service =>
    let client := (service.client settings).value
    pure (succeeded (printed ++ overview colours i.verbose client.report.value))

/-- Classify the resources of a service and write its artifacts. -/
def generate (colours : Bool) (i : Invocation) (settings : Settings) : m Outcome := do
  let settings : Settings :=
    { settings with
      generateSamples := settings.generateSamples || i.samples
      generateTests := settings.generateTests || i.tests }
  let printed :=
    (if i.verbose then
      "  Samples: " ++ flagText settings.generateSamples ++ "\n  Mock tests: "
        ++ flagText settings.generateTests ++ "\n  Output: " ++ i.output ++ "\n"
      else "")
    ++ loadingLine colours i.model
  match ← Service.load i.model with
  | .error failure => pure (failed printed "load code model" failure)
  | .ok service =>
    let printed := printed ++ progress colours "Classifying resources..."
      ++ progress colours "Generating files..."
    let (summary, steps) := (service.client settings).value.artifacts settings i.output
    match (← perform steps).2 with
    | .error failure => pure (failed printed "generate output" failure)
    | .ok () => pure (succeeded (printed ++ summaryLines colours i.output summary))

def settingsOf (path : Option String) : m (Except Failure Settings) :=
  match path with
  | some path => Settings.load path
  | none => pure (.ok .standard)

/-- Run an invocation. Settings are read before anything else. -/
def invoke (colours : Bool) (i : Invocation) : m Outcome := do
  match ← settingsOf i.settings with
  | .error failure => pure (failed "" "load settings" failure)
  | .ok settings =>
    match i.command with
    | .classify => classify colours i settings
    | .generate => generate colours i settings

def versionLine : String := "fluent-resource-generator 0.2.0\n"

def usage : String :=
  "Usage: fluent-resource-generator <classify|generate> --code-model <FILE> [OPTIONS]\n"

def run (colours : Bool) (arguments : List String) : m Outcome :=
  match readArguments arguments with
  | .ok i => invoke colours i
  | .error .version => pure (succeeded versionLine)
  | .error .help => pure (succeeded usage)
  | .error .misuse => pure ⟨2, "", usage⟩

end

end Lifecycle.CommandLine
