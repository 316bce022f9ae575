import Lifecycle.File.Storage
import Lifecycle.Mock.Encode
import Lifecycle.Random.Seeded
import Lifecycle.Report.Page
import Lifecycle.Sample.Page
import Lifecycle.Settings

/-!
# Artifacts

What is written for a client: the report, as JSON and as a page; a page for each operation with
samples; and a file for each mock test. The steps of writing are data, so that what is written does
not depend on what is there; `perform` carries them out and stops at the first that fails.
-/

namespace Lifecycle

/-- A step on the way to the artifacts. -/
inductive Step
  | note (notice : Notice)
  /-- make a directory for something -/
  | makeDirectory (purpose path : String)
  | write (path text : String)

/-- The numbers of artifacts of each kind. -/
structure Summary where
  resources : Nat
  samples : Nat
  tests : Nat
deriving DecidableEq, Repr

namespace Client

def reportFiles (client : Client) : List (String × String) :=
  [("resources.json", client.report.value.toJson.pretty),
    ("RESOURCES.md", client.report.value.page)]

def sampleFiles (client : Client) : Logged (List (String × String)) := do
  let samples ← client.allSamples
  pure (samples.map fun s => (s.name ++ ".md", s.page))

def testFiles (client : Client) : Logged (List (String × String)) := do
  let tests ← Mock.tests client Seeded.standard
  pure (tests.map fun t => (t.name ++ ".json", t.toJson.pretty))

end Client

/-- The steps that write files into a directory that is there. -/
def fileSteps (directory : String) (files : List (String × String)) : List Step :=
  files.map fun f => .write (Path.join directory f.1) f.2

/-- The steps that write files into a directory, which is not made for nothing. -/
def directorySteps (purpose directory : String) (files : List (String × String)) : List Step :=
  if files.isEmpty then []
  else .makeDirectory purpose directory :: fileSteps directory files

def Logged.steps (x : Logged α) : List Step :=
  x.notices.map .note

/-- Nothing, unless it is wanted. -/
def wanted (condition : Bool) (files : Logged (List (String × String))) :
    Logged (List (String × String)) :=
  if condition then files else pure []

/-- The artifacts of a client: their numbers, and the steps that write them into a directory. -/
def Client.artifacts (client : Client) (settings : Settings) (out : String) :
    Summary × List Step :=
  let report := client.report
  let samples := wanted settings.generateSamples client.sampleFiles
  let tests := wanted settings.generateTests client.testFiles
  let summary : Summary :=
    ⟨report.value.resourceCount, samples.value.length, tests.value.length⟩
  (summary,
    [.makeDirectory "output" out] ++ report.steps ++ fileSteps out client.reportFiles
      ++ samples.steps ++ directorySteps "samples" (Path.join out "samples") samples.value
      ++ tests.steps ++ directorySteps "mock-tests" (Path.join out "mock-tests") tests.value
      ++ [.note (.generated summary.resources summary.samples summary.tests out)])

section

variable {m : Type → Type} [Monad m] [Files m]

/-- Carry out steps up to the first that fails, and gather the notices until then. -/
def perform : List Step → m (List Notice × Except Failure Unit)
  | [] => pure ([], .ok ())
  | .note notice :: rest => do
    let (notices, outcome) ← perform rest
    pure (notice :: notices, outcome)
  | .makeDirectory purpose path :: rest => do
    match ← Files.makeDirectories path with
    | .ok () => perform rest
    | .error fault => pure ([], .error (.directory purpose fault))
  | .write path text :: rest => do
    match ← Files.write path text with
    | .ok () => perform rest
    | .error fault => pure ([], .error (.unwritten path fault))

end

end Lifecycle
