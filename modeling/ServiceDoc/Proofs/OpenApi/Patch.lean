import ServiceDoc.Proofs.OpenApi.Load
import ServiceDoc.Value.Part

/-!
# Patches

Changes to an element come as the entries of a mapping. What a changed element is written as
depends on these entries and on what it was written as alone, key by key: a value replaces what was
there unless it is nothing, and leaves the key unset if it is empty; a flag is set and never
cleared; sequences are appended; mappings are set key by key; elements are changed in turn where
both are of one kind, and replaced otherwise.

Changes in JSON are a tree: nothing in them is marked, and no mapping has a key twice.
-/

namespace ServiceDoc

/-- A value, unless it stands for nothing. -/
def Value.set? (value : Value) : Option Value := if value.isUnset then none else some value

namespace Kind

/-- The field of an element of a kind that a key stands for. -/
def fieldAt? (kind : Kind) : Scalar → Option Field
  | .string key => kind.field? key
  | _ => none

/-- The entries of an element of a kind after changes to what stands under the keys of its fields,
and with further extensions. -/
def settle (kind : Kind) (base : Entries Value) (changes : List (String × Option Value))
    (extensions : Entries Value) : Entries Value :=
  kind.tabulate (fun key => (changes.lookup key).getD (base.get? (.string key))) ++
    base.extended.putAll extensions

/-- The entries that an element is laid over in the place of a kind: those of an element that is
there and of its own kind. -/
def baseOf (kind own : Kind) (old : Option Value) : Entries Value :=
  ((old.bind Value.entries?).filter fun base => kind.loadedFrom base = own).getD []

end Kind

mutual
/-- What stands under the key of a field of a shape after it is changed. -/
def Value.patched (shape : FieldShape) (old : Option Value) : Value → Option Value
  | .scalar scalar =>
    match shape with
    | .flag => if scalar = .bool true then some (.bool true) else old
    | _ => if scalar = .null then old else (Value.scalar scalar).set?
  | .array mark items =>
    let before := (old.map Value.items).getD []
    match shape with
    | .list => (Value.list (before ++ items)).set?
    | .many kind => (Value.list (before ++ patchedMany kind items)).set?
    | _ => (Value.array mark items).set?
  | .object mark entries =>
    let before := (old.bind Value.entries?).getD []
    match shape with
    | .map => (Value.map (before.putAll entries)).set?
    | .table kind => (Value.map (patchedTable kind before entries)).set?
    | .one kind | .boolOrOne kind =>
      let own := kind.loadedFrom entries
      let base := kind.baseOf own old
      some (.map (own.settle base (patchedFields own base entries) (Entries.extended entries)))
    | _ => (Value.object mark entries).set?
  | value => value.set?

/-- The items of a sequence as new elements. -/
def patchedMany (kind : Kind) : List Value → List Value
  | [] => []
  | item :: items => (item.patched (.one kind) none).toList ++ patchedMany kind items

/-- The entries of a mapping to elements after changes to elements. -/
def patchedTable (kind : Kind) (current : Entries Value) : List (Scalar × Value) → Entries Value
  | [] => current
  | (key, value) :: entries =>
    patchedTable kind ((value.patched (.one kind) (current.get? key)).elim current (current.put key))
      entries

/-- What stands under the keys of fields after changes. -/
def patchedFields (kind : Kind) (base : Entries Value) :
    List (Scalar × Value) → List (String × Option Value)
  | [] => []
  | (key, value) :: entries =>
    match kind.fieldAt? key with
    | some field =>
      (field.key, value.patched field.shape (base.get? key)) :: patchedFields kind base entries
    | none => patchedFields kind base entries
end

/-- What an element of a kind is written as after changes. -/
def Kind.patch (kind : Kind) (base entries : Entries Value) : Entries Value :=
  kind.settle base (patchedFields kind base entries) entries.extended

theorem Kind.fieldAt?_eq_some_iff {kind : Kind} {key : Scalar} {field : Field} :
    kind.fieldAt? key = some field ↔ field ∈ kind.fields ∧ key = .string field.key := by
  cases key with
  | string name =>
      rw [fieldAt?, field?_eq_some_iff, Scalar.string.injEq, eq_comm (a := name)]
  | _ => exact iff_of_false (fun found => nomatch found) fun both => nomatch both.2

/-- The change of a field is that of the value under its key. -/
theorem lookup_patchedFields {kind : Kind} {base entries : Entries Value} {field : Field}
    (known : field ∈ kind.fields) :
    (patchedFields kind base entries).lookup field.key =
      (entries.get? (.string field.key)).map fun value =>
        value.patched field.shape (base.get? (.string field.key)) := by
  induction entries with
  | nil => rfl
  | cons entry rest ih =>
      obtain ⟨key, value⟩ := entry
      rw [patchedFields, Entries.get?_cons]
      by_cases same : key = .string field.key
      · subst same
        rw [if_pos rfl, Kind.fieldAt?_eq_some_iff.mpr ⟨known, rfl⟩]
        exact List.lookup_cons_self
      · rw [if_neg same, ← ih]
        cases found : kind.fieldAt? key with
        | none => rfl
        | some other =>
            obtain ⟨-, rfl⟩ := Kind.fieldAt?_eq_some_iff.mp found
            have differ : (field.key == other.key) = false :=
              beq_false_of_ne fun equal => same (congrArg Scalar.string equal.symm)
            exact List.lookup_cons.trans (by rw [differ])

/-! ## Changes in JSON -/

/-- A scalar occurs in JSON. -/
def Scalar.isJson : Scalar → Bool
  | .date .. | .timestamp .. | .bytes _ => false
  | _ => true

/-- A key occurs in JSON. -/
def Scalar.isJsonKey : Scalar → Bool
  | .string _ | .surrogates _ => true
  | _ => false

mutual
/-- A value is a tree of JSON. -/
def Value.isJson : Value → Bool
  | .scalar scalar => scalar.isJson
  | .array mark items => mark.isEmpty && areJson items
  | .object mark entries => mark.isEmpty && decide (Entries.keys entries).Nodup && holdJson entries
  | _ => false

/-- Values are trees of JSON. -/
def areJson : List Value → Bool
  | [] => true
  | item :: items => item.isJson && areJson items

/-- Entries of a mapping hold trees of JSON. -/
def holdJson : List (Scalar × Value) → Bool
  | [] => true
  | (key, value) :: entries => key.isJsonKey && value.isJson && holdJson entries
end

section Stamp

variable {stamp : Mark}

theorem Scalar.stamped_of_isJsonKey {key : Scalar} (json : key.isJsonKey = true) :
    key.stamped stamp = key := by
  cases key with
  | date => exact (Bool.false_ne_true json).elim
  | timestamp => exact (Bool.false_ne_true json).elim
  | _ => rfl

theorem Scalar.stamped_of_isJson {scalar : Scalar} (json : scalar.isJson = true) :
    scalar.stamped stamp = scalar := by
  cases scalar with
  | date => exact (Bool.false_ne_true json).elim
  | timestamp => exact (Bool.false_ne_true json).elim
  | _ => rfl

mutual

/-- Nothing in JSON is marked. -/
theorem stamped_of_isJson (value : Value) (json : value.isJson = true) :
    value.stamped stamp = value :=
  match value with
  | .scalar scalar => congrArg Value.scalar (Scalar.stamped_of_isJson json)
  | .array mark items => by
      rw [Value.isJson, Bool.and_eq_true, List.isEmpty_iff] at json
      obtain ⟨rfl, inner⟩ := json
      rw [Value.stamped, stampedItems_of_areJson items inner]
      rfl
  | .object mark entries => by
      rw [Value.isJson, Bool.and_eq_true, Bool.and_eq_true, List.isEmpty_iff] at json
      obtain ⟨⟨rfl, -⟩, inner⟩ := json
      rw [Value.stamped, stampedEntries_of_holdJson entries inner]
      rfl
  | .pair .. | .set .. | .enclosing .. => (Bool.false_ne_true json).elim

theorem stampedItems_of_areJson (items : List Value) (json : areJson items = true) :
    Value.stampedItems stamp items = items :=
  match items with
  | [] => rfl
  | item :: rest => by
      rw [areJson, Bool.and_eq_true] at json
      rw [Value.stampedItems, stamped_of_isJson item json.1, stampedItems_of_areJson rest json.2]

theorem stampedEntries_of_holdJson (entries : List (Scalar × Value))
    (json : holdJson entries = true) : Value.stampedEntries stamp entries = entries :=
  match entries with
  | [] => rfl
  | (key, value) :: rest => by
      rw [holdJson, Bool.and_eq_true, Bool.and_eq_true] at json
      rw [Value.stampedEntries, Scalar.stamped_of_isJsonKey json.1.1,
        stamped_of_isJson value json.1.2, stampedEntries_of_holdJson rest json.2]

end

end Stamp

theorem holdJson_extended {entries : Entries Value} (json : holdJson entries = true) :
    holdJson entries.extended = true := by
  induction entries with
  | nil => rfl
  | cons entry rest ih =>
      rw [holdJson, Bool.and_eq_true] at json
      rw [Entries.extended_cons]
      split
      · rw [holdJson, json.1, ih json.2]
        rfl
      · exact ih json.2

end ServiceDoc
