import Lifecycle.Proofs.RecordLaws
import Lifecycle.Proofs.Sequence
import Lifecycle.Service.Decode
import Lifecycle.Service.Encode

/-!
# Services and settings as JSON and back

A service description is recovered from its JSON form, and so are settings. What is left out of the
form of a record is what its absence is read as; the order of maps is kept. The values in examples
are any JSON, as long as no object has two members of one key.
-/
namespace Lifecycle

open Json

/-- No two examples have one name, and no object in them has two members of one key. -/
def Operation.KeysDistinct (op : Operation) : Prop :=
  (Keyed.keys op.examples).Nodup ∧ ∀ e ∈ op.examples,
    (Value.object e.2.parameters).KeysDistinct ∧ (Value.object e.2.responses).KeysDistinct

def Service.KeysDistinct (service : Service) : Prop :=
  ∀ group ∈ service.groups, ∀ op ∈ group.operations, op.KeysDistinct

namespace Json

variable {αs : List Type} {rest : Fields Document (Except Fault) αs} {members : Keyed Value}
  {row : Row αs}

/-- A member without a value is left out, and is read as having none. -/
theorem Spells.optionalMember {α : Type} {read : Document → Except Fault α} {encode : α → Value}
    {name : String} {o : Option α} (hv : ∀ a, encode a ≠ .null)
    (h : ∀ a, read (.ofValue (encode a)) = .ok a) (more : Spells rest members row) :
    Spells (.defaulted name (Source.optional read) Option.none rest)
      (Lifecycle.optionalMember name encode o ++ members) (o, row) := by
  cases o with
  | none => exact .omitted more
  | some a => exact .written (optional_ofValue (hv a) (h a)) more

theorem Spells.optionalText {name : String} {o : Option String} (more : Spells rest members row) :
    Spells (.defaulted name (Source.optional Source.text) Option.none rest)
      (Lifecycle.optionalMember name Value.string o ++ members) (o, row) :=
  .optionalMember (fun _ => nofun) (fun _ => rfl) more

theorem text_ofValue (s : String) :
    (Source.text (Document.ofValue (.string s)) : Except Fault String) = .ok s := rfl

theorem flag_ofValue (b : Bool) :
    (Source.flag (Document.ofValue (.bool b)) : Except Fault Bool) = .ok b := rfl

/-- A 16 bit number is in the range that is read as one. -/
theorem word_ofValue (n : UInt16) :
    (Source.word (Document.ofValue (.integer n.toNat)) : Except Fault UInt16) = .ok n := by
  have hlt : n.toNat < 65536 := n.toNat_lt
  have hp : Int.pow 2 16 = 65536 := rfl
  have hn : (0 : Int) ≤ n.toNat ∧ (n.toNat : Int) < Int.pow 2 16 := by omega
  change Document.word (.number (.sound (.integer n.toNat))) = _
  simp only [Document.word, Token.sound]
  rw [if_pos hn, Int.toNat_natCast, UInt16.ofNat_toNat]

theorem strings_ofValue (items : List String) :
    (Source.list Source.text (Document.ofValue (.strings items)) : Except Fault (List String)) =
      .ok items :=
  list_ofValue fun _ _ => rfl

end Json

/-! ### Schemas -/

theorem ValueType.read_toJson (type : ValueType) :
    ValueType.read (Document.ofValue type.toJson) = .ok type := by
  induction type with
  | enum values =>
    rw [ValueType.read]
    change (ValueType.enum <$> Source.list Source.text (Document.ofValue (.strings values))
      >>= _) = _
    rw [strings_ofValue]
    rfl
  | list item ih =>
    rw [ValueType.read]
    change (ValueType.list <$> ValueType.read (Document.ofValue item.toJson) >>= _) = _
    rw [ih]
    rfl
  | map value ih =>
    rw [ValueType.read]
    change (ValueType.map <$> ValueType.read (Document.ofValue value.toJson) >>= _) = _
    rw [ih]
    rfl
  | _ =>
    rw [ValueType.read]
    rfl

theorem Property.read_toJson (p : Property) :
    Property.read (Document.ofValue p.toJson) = .ok p := by
  have hs : Spells Property.fields
      ([("name", .string p.name), ("serializedName", .string p.serializedName),
        ("propertyType", p.type.toJson), ("required", .bool p.required),
        ("readOnly", .bool p.readOnly), ("constant", .bool p.constant)]
        ++ (optionalMember "description" .string p.description ++ []))
      (p.name, p.serializedName, p.type, p.required, p.readOnly, p.constant, p.description, ()) :=
    .written (text_ofValue _) <| .written (text_ofValue _) <| .written p.type.read_toJson <|
      .written (flag_ofValue _) <| .written (flag_ofValue _) <| .written (flag_ofValue _) <|
      .optionalText .none
  rw [List.append_nil] at hs
  rw [Property.read, Property.toJson, record_ofValue hs (by decide)]
  rfl

theorem Schema.read_toJson (s : Schema) : Schema.read (Document.ofValue s.toJson) = .ok s := by
  have hp : (Source.list Property.read
      (Document.ofValue (.array (s.properties.map Property.toJson))) :
      Except Fault _) = .ok s.properties := list_ofValue fun p _ => p.read_toJson
  have hs : Spells Schema.fields
      ([("name", .string s.name)] ++ (optionalMember "parentModelName" .string s.parent
        ++ ((if s.derived.isEmpty then [] else [("derivedModels", .strings s.derived)])
        ++ [("properties", .array (s.properties.map Property.toJson))])))
      (s.name, s.parent, s.derived, s.properties, ()) := by
    refine .written (text_ofValue _) (.optionalText ?_)
    cases s.derived with
    | nil => exact .omitted (.written hp .none)
    | cons d rest => exact .written (strings_ofValue (d :: rest)) (.written hp .none)
  rw [Schema.read, Schema.toJson, List.append_assoc, List.append_assoc,
    record_ofValue hs (by decide)]
  rfl

/-! ### Operations -/

theorem Location.read_toJson (l : Location) :
    Source.plainChoice Location.variants (Document.ofValue l.toJson) = .ok l := by
  cases l <;> rfl

theorem Verb.read_display (v : Verb) :
    Source.plainChoice Verb.variants (Document.ofValue (.string v.display)) = .ok v := by
  cases v <;> rfl

theorem Parameter.read_toJson (p : Parameter) :
    Parameter.read (Document.ofValue p.toJson) = .ok p := by
  have hs : Spells Parameter.fields _
      (p.name, p.serializedName, p.location, p.type, p.required, p.constant, p.fromClient, ()) :=
    .written (text_ofValue _) <| .written (text_ofValue _) <| .written p.location.read_toJson <|
      .written p.type.read_toJson <| .written (flag_ofValue _) <| .written (flag_ofValue _) <|
      .written (flag_ofValue _) .none
  rw [Parameter.read, Parameter.toJson, record_ofValue hs (by decide)]
  rfl

theorem Paging.read_toJson (p : Paging) : Paging.read (Document.ofValue p.toJson) = .ok p := rfl

theorem Example.read_toJson {e : Example} (hp : (Value.object e.parameters).KeysDistinct)
    (hr : (Value.object e.responses).KeysDistinct) :
    Example.read (Document.ofValue e.toJson) = .ok e := by
  have hs : Spells Example.fields (optionalMember "originalFile" .string e.originalFile
        ++ [("parameters", .object e.parameters), ("responses", .object e.responses)])
      (e.originalFile, e.parameters, e.responses, ()) :=
    .optionalText <| .written (map_tree_ofValue hp) <| .written (map_tree_ofValue hr) .none
  rw [Example.read, Example.toJson, record_ofValue hs (by decide)]
  rfl

/-- Only examples hold free values, so theirs are the only keys to be distinct. -/
theorem Operation.read_toJson {op : Operation} (h : op.KeysDistinct) :
    Operation.read (Document.ofValue op.toJson) = .ok op := by
  have hparameters : (Source.list Parameter.read
      (Document.ofValue (.array (op.parameters.map Parameter.toJson))) : Except Fault _) =
        .ok op.parameters :=
    list_ofValue fun p _ => p.read_toJson
  have hcodes : (Source.list Source.word
      (Document.ofValue (.array (op.expectedStatusCodes.map fun c => .integer c.toNat))) :
        Except Fault _) = .ok op.expectedStatusCodes :=
    list_ofValue fun c _ => word_ofValue c
  have hexamples : (Source.map Example.read
      (Document.ofValue (.object (op.examples.map fun e => (e.1, e.2.toJson)))) :
        Except Fault _) = .ok op.examples :=
    map_ofValue h.1 fun e he => Example.read_toJson (h.2 e he).1 (h.2 e he).2
  have hs : Spells Operation.fields
      ([("name", .string op.name), ("httpMethod", .string op.verb.display),
          ("urlPath", .string op.url), ("parameters", .array (op.parameters.map Parameter.toJson))]
        ++ (optionalMember "returnType" .string op.returnType
        ++ ([("longRunning", .bool op.longRunning)]
        ++ (optionalMember "paging" Paging.toJson op.paging
        ++ (optionalMember "requestContentType" .string op.requestContentType
        ++ [("expectedStatusCodes",
            .array (op.expectedStatusCodes.map fun c => .integer c.toNat)),
          ("examples", .object (op.examples.map fun e => (e.1, e.2.toJson)))])))))
      (op.name, op.verb, op.url, op.parameters, op.returnType, op.longRunning, op.paging,
        op.requestContentType, op.expectedStatusCodes, op.examples, ()) :=
    .written (text_ofValue _) <| .written op.verb.read_display <| .written (text_ofValue _) <|
      .written hparameters <| .optionalText <| .written (flag_ofValue _) <|
      .optionalMember (fun _ => nofun) Paging.read_toJson <| .optionalText <|
      .written hcodes <| .written hexamples .none
  simp only [Operation.read, Operation.toJson, List.append_assoc]
  rw [record_ofValue hs (by decide)]
  rfl

theorem OperationGroup.read_toJson {group : OperationGroup}
    (h : ∀ op ∈ group.operations, op.KeysDistinct) :
    OperationGroup.read (Document.ofValue group.toJson) = .ok group := by
  have hs : Spells OperationGroup.fields _ (group.name, group.operations, ()) :=
    .written (text_ofValue _) <|
      .written (list_ofValue fun op ho => Operation.read_toJson (h op ho)) .none
  rw [OperationGroup.read, OperationGroup.toJson, record_ofValue hs (by decide)]
  rfl

/-- Groups and schemas in their order, each of them read back. -/
theorem Service.read_toJson {service : Service} (h : service.KeysDistinct) :
    Service.read (Document.ofValue service.toJson) = .ok service := by
  have hs : Spells Service.fields _ (service.name, service.schemas, service.groups, ()) :=
    .written (text_ofValue _) <| .written (list_ofValue fun s _ => s.read_toJson) <|
      .written (list_ofValue fun g hg => OperationGroup.read_toJson (h g hg)) .none
  rw [Service.read, Service.toJson, record_ofValue hs (by decide)]
  rfl

/-! ### Settings -/

/-- The collection of an association is written even if there is none. -/
theorem Association.read_toJson (a : Association) :
    Association.read (Document.ofValue a.toJson) = .ok a := by
  have hc : (Source.optional Source.text (Document.ofValue (Value.optional .string a.collection)) :
      Except Fault _) = .ok a.collection := by
    cases a.collection <;> rfl
  have hs : Spells Association.fields _ (a.resource, a.collection, ()) :=
    .written (text_ofValue _) <| .written hc .none
  rw [Association.read, Association.toJson, record_ofValue hs (by decide)]
  rfl

theorem Settings.read_toJson (settings : Settings) :
    Settings.read (Document.ofValue settings.toJson) = .ok settings := by
  have hs : Spells Settings.fields _ (settings.associations, settings.generateSamples,
      settings.generateTests, settings.fluentLite, ()) :=
    .written (list_ofValue fun a _ => a.read_toJson) <| .written (flag_ofValue _) <|
      .written (flag_ofValue _) <| .written (flag_ofValue _) .none
  rw [Settings.read, Settings.toJson, record_ofValue hs (by decide)]
  rfl

/-- Services and settings are read from their JSON form as they were. -/
theorem recovered_from_json {service : Service} (h : service.KeysDistinct) (settings : Settings) :
    Service.read (Document.ofValue service.toJson) = .ok service ∧
      Settings.read (Document.ofValue settings.toJson) = .ok settings :=
  ⟨Service.read_toJson h, settings.read_toJson⟩

namespace Workshop

/-- Tools with types inside types, and an operation with examples that hold any JSON. -/
def documented : Service where
  name := "Workshop"
  schemas :=
    [⟨"Tool", some "Item", ["Saw"],
      [⟨"labels", "properties.labels", .map (.list (.enum [])), true, false, false, none⟩,
        ⟨"owner", "owner", .list (.map (.model "Person")), false, true, false, some "who has it"⟩]⟩]
  groups :=
    [⟨"Tools",
      [{ operation "list" .get "/tools" [] "Tool" with
        paging := some ⟨"value"⟩
        requestContentType := some "application/json"
        examples :=
          [("Second", ⟨some "second.json",
              [("tool", .object
                [("z", .null), ("a", .array [.object [("z", .integer 3)], .null])])],
              [("201", .object [])]⟩),
            ("First", ⟨none, [], []⟩)] }]⟩]

end Workshop

theorem documented_recovered :
    Workshop.documented.KeysDistinct ∧
      Service.read (Document.ofValue Workshop.documented.toJson) = .ok Workshop.documented ∧
      Settings.read (Document.ofValue (Settings.toJson ⟨[⟨"Tool", none⟩], true, false, true⟩)) =
        .ok ⟨[⟨"Tool", none⟩], true, false, true⟩ := by
  have h : Workshop.documented.KeysDistinct := by
    have hnull : Value.null.KeysDistinct := Value.keysDistinct_scalar nofun nofun
    have hnumber : (Value.integer 3).KeysDistinct := Value.keysDistinct_scalar nofun nofun
    simp [-Prod.forall, Service.KeysDistinct, Operation.KeysDistinct, Workshop.documented,
      Keyed.keys, Value.keysDistinct_object, Value.keysDistinct_array, hnull, hnumber]
  exact ⟨h, recovered_from_json h _⟩

end Lifecycle
