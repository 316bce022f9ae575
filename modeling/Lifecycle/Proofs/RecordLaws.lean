import Lifecycle.Json.Take
import Lifecycle.Proofs.NullFree

/-!
# Reading what was written

Laws of the readers for documents of flawless texts: lists, maps and any JSON value are read back as
they were, and so is a record whose members stand in the order of its fields, where a field may be
left out if its absence means the same. Maps are only read back if no key comes twice.
-/
namespace Lifecycle

open Json

namespace Json.Value

/-- No object, the value itself or one that stands in it, has two members of one key. -/
def KeysDistinct (v : Value) : Prop :=
  ∀ members, Relation.ReflTransGen Child (.object members) v → (Keyed.keys members).Nodup

theorem keysDistinct_of_child {v w : Value} (h : v.KeysDistinct) (hw : w.Child v) :
    w.KeysDistinct := by
  intro members hm
  exact h members (hm.tail hw)

/-- A value that is no container holds no objects. -/
theorem keysDistinct_scalar {v : Value} (ho : ∀ members, v ≠ object members)
    (ha : ∀ items, v ≠ array items) : v.KeysDistinct := by
  intro members hm
  rcases hm.cases_tail with he | ⟨w, _, hw⟩
  · exact absurd he (ho members)
  · cases hw with
    | item => exact absurd rfl (ha _)
    | member => exact absurd rfl (ho _)

theorem keysDistinct_array {items : List Value} :
    (array items).KeysDistinct ↔ ∀ w ∈ items, w.KeysDistinct := by
  constructor
  · intro h w hw
    exact keysDistinct_of_child h (.item hw)
  · intro h members hm
    rcases hm.cases_tail with he | ⟨w, hm, ⟨hw⟩⟩
    · cases he
    · exact h w hw members hm

theorem keysDistinct_object {members : Keyed Value} :
    (object members).KeysDistinct ↔
      (Keyed.keys members).Nodup ∧ ∀ p ∈ members, p.2.KeysDistinct := by
  constructor
  · intro h
    refine ⟨h members .refl, ?_⟩
    rintro ⟨key, w⟩ hp
    exact keysDistinct_of_child h (.member hp)
  · rintro ⟨hn, h⟩ inner hm
    rcases hm.cases_tail with he | ⟨w, hm, hw⟩
    · cases he
      exact hn
    · cases hw with
      | member hp => exact h _ hp inner hm

end Json.Value

namespace Keyed

variable {α : Type} {key : String} {value : α} {front back entries : Keyed α}

/-- A key that is new comes last. -/
theorem put_of_not_mem (h : key ∉ keys entries) :
    put key value entries = entries ++ [(key, value)] := by
  induction entries with
  | nil => rfl
  | cons p rest ih =>
    rw [keys, List.map_cons, List.mem_cons, not_or] at h
    have hk : ¬ (p.1 == key) = true := fun he => h.1 (eq_of_beq he).symm
    rw [put, if_neg hk, ih h.2, List.cons_append]

theorem put_append_cons (h : (keys (front ++ (key, value) :: back)).Nodup) :
    put key value front = front ++ [(key, value)] := by
  apply put_of_not_mem
  intro hm
  rw [keys, List.map_append, List.map_cons] at h
  exact (List.nodup_append.mp h).2.2 key hm key List.mem_cons_self rfl

end Keyed

namespace Json

variable {α : Type} {read : Document → Except Fault α} {encode : α → Value}

/-! ### Lists, maps and values -/

theorem list_ofValue {items : List α} (h : ∀ a ∈ items, read (.ofValue (encode a)) = .ok a) :
    (Source.list read (.ofValue (.array (items.map encode))) : Except Fault (List α)) =
      .ok items := by
  have hl : (Items.ofValues (items.map encode)).list read = .ok items := by
    induction items with
    | nil => rfl
    | cons a rest ih =>
      rw [List.forall_mem_cons] at h
      rw [List.map_cons, Items.ofValues, Items.list, h.1, ih h.2]
      rfl
  exact hl

/-- Entries are read after those that are there already. -/
theorem map_ofMembers (met : Keyed α) {entries : Keyed α} (hn : (Keyed.keys (met ++ entries)).Nodup)
    (h : ∀ e ∈ entries, read (.ofValue (encode e.2)) = .ok e.2) :
    (Entries.ofMembers (entries.map fun e => (e.1, encode e.2))).map read met =
      .ok (met ++ entries) := by
  induction entries generalizing met with
  | nil =>
    rw [List.append_nil]
    rfl
  | cons e rest ih =>
    rw [List.forall_mem_cons] at h
    have hp := Keyed.put_append_cons hn
    rw [List.append_cons] at hn ⊢
    rw [List.map_cons, Entries.ofMembers, Entries.map, h.1, ← ih _ hn h.2, ← hp]
    rfl

theorem map_ofValue {entries : Keyed α} (hn : (Keyed.keys entries).Nodup)
    (h : ∀ e ∈ entries, read (.ofValue (encode e.2)) = .ok e.2) :
    (Source.map read (.ofValue (.object (entries.map fun e => (e.1, encode e.2)))) :
      Except Fault (Keyed α)) = .ok entries :=
  map_ofMembers [] hn h

mutual

/-- By induction on the value; at an object, on the members met so far. -/
theorem tree_ofValue : ∀ v : Value, v.KeysDistinct → (Document.ofValue v).tree = .ok v
  | .null, _ => rfl
  | .bool _, _ => rfl
  | .number _, _ => rfl
  | .string _, _ => rfl
  | .array items, h => by
    rw [Document.ofValue, Document.tree, tree_ofValues items (Value.keysDistinct_array.mp h)]
    rfl
  | .object members, h => by
    obtain ⟨hn, hm⟩ := Value.keysDistinct_object.mp h
    rw [Document.ofValue, Document.tree, tree_ofMembers members [] hn hm]
    rfl

theorem tree_ofValues : ∀ items : List Value, (∀ w ∈ items, w.KeysDistinct) →
    (Items.ofValues items).tree = .ok items
  | [], _ => rfl
  | v :: rest, h => by
    rw [List.forall_mem_cons] at h
    rw [Items.ofValues, Items.tree, tree_ofValue v h.1, tree_ofValues rest h.2]
    rfl

theorem tree_ofMembers : ∀ members met : Keyed Value, (Keyed.keys (met ++ members)).Nodup →
    (∀ p ∈ members, p.2.KeysDistinct) → (Entries.ofMembers members).tree met = .ok (met ++ members)
  | [], met, _, _ => by
    rw [List.append_nil]
    rfl
  | (key, v) :: rest, met, hn, h => by
    rw [List.forall_mem_cons] at h
    have hp := Keyed.put_append_cons hn
    rw [List.append_cons] at hn ⊢
    rw [Entries.ofMembers, Entries.tree, tree_ofValue v h.1, ← tree_ofMembers rest _ hn h.2, ← hp]
    rfl

end

/-- Texts to any values are read back. -/
theorem map_tree_ofValue {entries : Keyed Value} (h : (Value.object entries).KeysDistinct) :
    (Source.map Source.tree (Document.ofValue (.object entries)) : Except Fault (Keyed Value)) =
      .ok entries := by
  obtain ⟨hn, hv⟩ := Value.keysDistinct_object.mp h
  have hm : (Source.map Source.tree
      (Document.ofValue (.object (entries.map fun e => (e.1, id e.2)))) :
      Except Fault (Keyed Value)) = .ok entries :=
    map_ofValue hn fun e he => tree_ofValue e.2 (hv e he)
  simpa using hm

theorem optional_ofValue {v : Value} {a : α} (hv : v ≠ .null) (h : read (.ofValue v) = .ok a) :
    Source.optional read (Document.ofValue v) = .ok (some a) := by
  have hp : (Document.ofValue v).present = .ok (some (.ofValue v)) := by
    cases v with
    | null => exact absurd rfl hv
    | _ => rfl
  change ((Document.ofValue v).present >>= _) = _
  rw [hp]
  change some <$> read (.ofValue v) = _
  rw [h]
  rfl

end Json

/-! ### Records -/

/-- The names of fields in order. -/
def Fields.names {σ : Type} {m : Type → Type} {αs : List Type} : Fields σ m αs → List String
  | .none => []
  | .field name _ _ rest => name :: rest.names

namespace Json

/-- `members` spell a row of fields: each field is written, or left out where that means the
same. -/
inductive Spells :
    {αs : List Type} → Fields Document (Except Fault) αs → Keyed Value → Row αs → Prop
  | none : Spells .none [] ()
  | written {α : Type} {αs : List Type} {name : String} {read : Document → Except Fault α}
      {absent : Option α} {rest : Fields Document (Except Fault) αs} {v : Value} {a : α}
      {members : Keyed Value} {row : Row αs} (value : read (.ofValue v) = .ok a)
      (more : Spells rest members row) :
      Spells (.field name read absent rest) ((name, v) :: members) (a, row)
  | omitted {α : Type} {αs : List Type} {name : String} {read : Document → Except Fault α}
      {rest : Fields Document (Except Fault) αs} {a : α} {members : Keyed Value} {row : Row αs}
      (more : Spells rest members row) : Spells (.field name read (some a) rest) members (a, row)

variable {α : Type} {αs : List Type} {name : String} {read : Document → Except Fault α}
  {absent : Option α} {rest : Fields Document (Except Fault) αs} {members : Keyed Value}
  {row : Row αs}

theorem Spells.keys_subset {fields : Fields Document (Except Fault) αs}
    (h : Spells fields members row) : Keyed.keys members ⊆ fields.names := by
  induction h with
  | none => exact List.Subset.refl []
  | written _ _ ih => exact List.cons_subset_cons _ ih
  | omitted _ ih => exact List.subset_cons_of_subset _ ih

theorem offer_self (slots : Slots αs) (d : Document) :
    Fields.offer name d (.field name read absent rest) (Option.none, slots) =
      read d >>= fun a => pure (.stored (some a, slots)) :=
  if_pos (beq_self_eq_true name)

theorem offer_of_ne {key : String} (h : name ≠ key) (slot : Option α) (slots : Slots αs)
    (d : Document) :
    Fields.offer key d (.field name read absent rest) (slot, slots) =
      rest.offer key d slots >>= fun
        | .unknown => pure .unknown
        | .repeated => pure .repeated
        | .stored slots => pure (.stored (slot, slots)) :=
  if_neg fun he => h (eq_of_beq he).symm

/-- A field that no member names keeps what is in its slot. -/
theorem row_of_not_named {slot : Option α} {slots : Slots αs} {a : α}
    (hn : name ∉ Keyed.keys members) (ha : slot.or absent = some a)
    (h : (Entries.ofMembers members).row rest slots = .ok row) :
    (Entries.ofMembers members).row (.field name read absent rest) (slot, slots) =
      .ok (a, row) := by
  induction members generalizing slots with
  | nil =>
    change ((rest.finish slots).mapError Fault.missingField) = .ok row at h
    change ((Fields.finish (.field name read absent rest) (slot, slots)).mapError _) = _
    rw [Fields.finish, ha]
    cases hf : rest.finish slots with
    | error e =>
      rw [hf] at h
      cases h
    | ok r =>
      rw [hf] at h
      cases h
      rfl
  | cons p tail ih =>
    obtain ⟨key, v⟩ := p
    rw [Keyed.keys, List.map_cons, List.mem_cons, not_or] at hn
    change (rest.offer key (.ofValue v) slots >>= _) = _ at h
    change (Fields.offer key (.ofValue v) (.field name read absent rest) (slot, slots) >>= _) = _
    rw [offer_of_ne hn.1]
    -- the offer goes on to the other fields, and what becomes of it there is kept
    cases ho : rest.offer key (.ofValue v) slots with
    | error e =>
      rw [ho] at h
      cases h
    | ok offer =>
      rw [ho] at h
      cases offer with
      | unknown =>
        change (refuse (Document.ofValue v).flaw >>= _) = _ at h ⊢
        cases hr : refuse (Document.ofValue v).flaw with
        | error e =>
          rw [hr] at h
          cases h
        | ok u =>
          rw [hr] at h
          exact ih hn.2 h
      | repeated => cases h
      | stored slots' => exact ih hn.2 h

/-- Members in the order of the fields are read into the row they spell. -/
theorem Spells.row_eq {fields : Fields Document (Except Fault) αs} (h : Spells fields members row)
    (hn : fields.names.Nodup) :
    (Entries.ofMembers members).row fields fields.unmet = .ok row := by
  induction h with
  | none => rfl
  | @written _ _ name read _ rest v a members _ value more ih =>
    rw [Fields.names, List.nodup_cons] at hn
    change (Fields.offer name (.ofValue v) (.field name read _ rest) (Option.none, rest.unmet)
      >>= _) = _
    rw [offer_self, value]
    exact row_of_not_named (fun hk => hn.1 (more.keys_subset hk)) (Option.some_or) (ih hn.2)
  | omitted more ih =>
    rw [Fields.names, List.nodup_cons] at hn
    exact row_of_not_named (fun hk => hn.1 (more.keys_subset hk)) Option.none_or (ih hn.2)

/-- A record is read back from members that spell it. -/
theorem record_ofValue {fields : Fields Document (Except Fault) αs} (h : Spells fields members row)
    (hn : fields.names.Nodup) :
    (Source.record name fields (.ofValue (.object members)) : Except Fault (Row αs)) = .ok row :=
  h.row_eq hn

end Json

end Lifecycle
