import Lifecycle.Json.Writer
import Lifecycle.Sample

/-!
# Sample pages

The samples of an operation as a page of Markdown: a heading for each sample, the file it comes
from, and the code.
-/

namespace Lifecycle

open Json

/-- An argument as it is written in code: a text in quotes, anything else as JSON. -/
def literal : Value → String
  | .string s => Text.quoted s
  | v => v.compact

def argumentList (arguments : List Value) : String :=
  String.intercalate ", " (arguments.map literal)

/-- The line that marks the start and the end of code. -/
def fence : String := "```\n"

/-- A heading, and the file that a sample comes from. -/
def SampleHead.page (h : SampleHead) : String :=
  "\n## " ++ h.name ++ "\n"
    ++ (match h.originalFile with
      | none => ""
      | some file => if file.isEmpty then "" else "\nSource: `" ++ file ++ "`\n")
    ++ "\n"

/-- Where a call on a collection starts. -/
def managerText (collection : String) : String :=
  "manager." ++ collection ++ "()"

def callText (method : String) (arguments : List Value) : String :=
  "." ++ method ++ "(" ++ argumentList arguments ++ ")"

/-- A call on a line of its own, as part of a chain. -/
def chainLine (method : String) (arguments : List Value) : String :=
  "    " ++ callText method arguments ++ "\n"

def stageLines (stages : List Call) : String :=
  String.join (stages.map fun c => chainLine c.method c.arguments)

def CallSample.page (s : CallSample) : String :=
  s.head.page ++ fence ++ managerText s.head.collection
    ++ callText s.method (s.parameters.map (·.2)) ++ ";\n" ++ fence

def CreateSample.page (s : CreateSample) : String :=
  s.head.page ++ fence ++ managerText s.head.collection ++ "\n"
    ++ chainLine s.define.method s.define.arguments ++ stageLines s.stages ++ "    .create();\n"
    ++ fence

def UpdateSample.page (s : UpdateSample) : String :=
  s.head.page ++ fence ++ s.resource ++ " resource = " ++ managerText s.fetch.head.collection
    ++ "\n" ++ chainLine s.fetch.method (s.fetch.parameters.map (·.2)) ++ "    .getValue();\n"
    ++ "resource.update()\n" ++ stageLines s.stages ++ "    .apply();\n" ++ fence

def OperationSamples.page (s : OperationSamples) : String :=
  "# " ++ pascalCase s.group ++ " " ++ s.method ++ " samples\n"
    ++ String.join (s.calls.map CallSample.page) ++ String.join (s.creates.map CreateSample.page)
    ++ String.join (s.updates.map UpdateSample.page) ++ "\n"

end Lifecycle
