import Lifecycle.Report

/-!
# Report pages

A report as a page of Markdown: a table of the lifecycle of each resource, and its chains of
builder stages.
-/

namespace Lifecycle

def code (name : String) : String := "`" ++ name ++ "`"

/-- The row of an operation in the table of a lifecycle. -/
def lifecycleRow (phase : String) : Option OperationReport → String
  | none => ""
  | some r =>
    "| " ++ phase ++ " | " ++ code r.method ++ " | " ++ String.intercalate ", " r.references
      ++ " |\n"

/-- The setters of some stages, each after an arrow. -/
def setterChain (stages : List Stage) : String :=
  String.join (stages.map fun s =>
    match s.setter with
    | none => ""
    | some setter => if setter.isEmpty then "" else " → " ++ code setter)

def ResourceReport.page (r : ResourceReport) : String :=
  "\n### " ++ r.name ++ "\n\nCategory: " ++ code r.category.display ++ ", inner model "
    ++ code r.schema ++ ".\n\n| Lifecycle | Method | Overloads |\n|-----------|--------|-----------|\n"
    ++ lifecycleRow "create" r.create ++ lifecycleRow "update" r.update
    ++ lifecycleRow "refresh" r.refresh ++ lifecycleRow "delete" r.delete
    ++ (if r.actions.isEmpty then ""
      else "\nActions: " ++ String.intercalate ", " (r.actions.map code) ++ "\n")
    ++ (match r.define with
      | none => ""
      | some d =>
        "\nDefinition chain: " ++ code d.name ++ setterChain r.definitionStages
          ++ " → `create`\n")
    ++ (if r.updateStages.isEmpty then ""
      else "\nUpdate chain: `update`" ++ setterChain r.updateStages ++ " → `apply`\n")

def CollectionReport.page (c : CollectionReport) : String :=
  "\n## " ++ pascalCase c.name ++ "\n"
    ++ (if c.resources.isEmpty then "\nNo resources are created through this collection.\n" else "")
    ++ String.join (c.resources.map ResourceReport.page)
    ++ (if c.extraMethods.isEmpty then ""
      else "\nAdditional methods:\n" ++ String.join (c.extraMethods.map fun m =>
        "\n- " ++ code m.signature ++ ": " ++ m.description ++ "\n"))

def Report.page (r : Report) : String :=
  "# " ++ r.name ++ " resources\n\n" ++ toString r.resourceCount ++ " resource model(s) across "
    ++ toString r.collections.length ++ " collection(s).\n"
    ++ String.join (r.collections.map CollectionReport.page) ++ "\n"

end Lifecycle
