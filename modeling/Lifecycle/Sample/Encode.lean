import Lifecycle.Sample
import Lifecycle.Service.Encode

/-!
# Samples as JSON
-/

namespace Lifecycle

open Json

def Call.toJson (c : Call) : Value :=
  .object [("method_name", .string c.method), ("arguments", .array c.arguments)]

/-- The members that every sample starts with. -/
def SampleHead.members (h : SampleHead) : List (String × Value) :=
  [("name", .string h.name)] ++ optionalMember "original_file" .string h.originalFile
    ++ [("collection", .string h.collection)]

def CallSample.members (s : CallSample) : List (String × Value) :=
  s.head.members
    ++ [("method_name", .string s.method),
      ("parameters", .array (s.parameters.map fun p =>
        .object [("name", .string p.1), ("value", p.2)]))]

def CallSample.toJson (s : CallSample) : Value := .object s.members

def CreateSample.members (s : CreateSample) : List (String × Value) :=
  s.head.members
    ++ [("resource", .string s.resource), ("define", s.define.toJson),
      ("stages", .array (s.stages.map Call.toJson))]

def CreateSample.toJson (s : CreateSample) : Value := .object s.members

def UpdateSample.toJson (s : UpdateSample) : Value :=
  .object <|
    s.head.members
    ++ [("resource", .string s.resource), ("get", s.fetch.toJson),
      ("stages", .array (s.stages.map Call.toJson))]

def OperationSamples.toJson (s : OperationSamples) : Value :=
  .object
    [("group_name", .string s.group), ("method_name", .string s.method),
      ("collection_method_examples", .array (s.calls.map CallSample.toJson)),
      ("resource_create_examples", .array (s.creates.map CreateSample.toJson)),
      ("resource_update_examples", .array (s.updates.map UpdateSample.toJson))]

end Lifecycle
