import ServiceDoc.Config.Parameter
import ServiceDoc.Proofs.Registry.Index

/-!
# The last value of a key

Setting the entries that a text writes one after the other leaves every key once, with the last of
its values.
-/

namespace ServiceDoc.Parameters

variable {parameters entries : Parameters} {key other value : String}

/-- The entries that a text writes: its parts between commas that are not blank, each cut at its
first `=` and trimmed. -/
def written (text : String) : Parameters :=
  ((Text.cutAt ',' text.toList).filter fun part => !(Text.trim part).isEmpty).map fun part =>
    (String.ofList (Text.trim (Text.cutOnce '=' part).1),
      String.ofList (Text.trim (Text.cutOnce '=' part).2))

/-- The last value of a key. -/
def last? (entries : Parameters) (key : String) : Option String :=
  get? entries.reverse key

/-! ## Setting and leaving out keys -/

theorem get?_cons {entry : String × String} :
    get? (entry :: parameters) key =
      if key = entry.1 then some entry.2 else parameters.get? key := by
  obtain ⟨first, old⟩ := entry
  unfold get?
  by_cases same : key = first
  · rw [if_pos same, same, List.lookup_cons_self]
  · rw [if_neg same, List.lookup_cons, beq_eq_false_iff_ne.mpr same]

@[simp] theorem get?_nil : get? [] key = none := rfl

theorem get?_append :
    get? (parameters ++ entries) key = (parameters.get? key).or (entries.get? key) :=
  List.lookup_append

theorem put_eq_put : parameters.put key value = Index.put parameters key value := by
  induction parameters with
  | nil => rfl
  | cons entry rest ih => rw [put, Index.put, ih]

theorem get?_put :
    (parameters.put key value).get? other =
      if other = key then some value else parameters.get? other := by
  induction parameters with
  | nil => exact get?_cons
  | cons entry rest ih =>
      rw [put]
      split
      next same =>
        rw [get?_cons, get?_cons, same]
        by_cases here : other = key <;> simp only [here, ↓reduceIte]
      next differ =>
        simp only [get?_cons, ih]
        split
        next here => rw [if_neg (here ▸ differ)]
        next => rfl

theorem get?_without :
    (parameters.without other).get? key =
      if key = other then none else parameters.get? key := by
  unfold without
  induction parameters with
  | nil => exact (ite_self none).symm
  | cons entry rest ih =>
      rw [List.filter_cons]
      split
      next kept =>
        rw [get?_cons, get?_cons, ih]
        split
        next here => rw [if_neg (here ▸ of_decide_eq_true kept)]
        next => rfl
      next left_out =>
        have same : entry.1 = other := by simpa using left_out
        rw [get?_cons, ih, same]
        by_cases here : key = other <;> simp only [here, ↓reduceIte]

/-! ## Entries of a text -/

/-- Set entries one after the other. -/
def putAll (parameters entries : Parameters) : Parameters :=
  entries.foldl (fun result entry => result.put entry.1 entry.2) parameters

theorem parse_eq_putAll (text : String) : parse text = putAll [] (written text) := by
  unfold parse putAll written
  rw [List.foldl_map, List.foldl_filter]
  congr
  funext result part
  cases (Text.trim part).isEmpty <;> rfl

theorem nodup_keys_putAll (distinct : (parameters.map Prod.fst).Nodup) :
    ((parameters.putAll entries).map Prod.fst).Nodup := by
  induction entries generalizing parameters with
  | nil => exact distinct
  | cons entry rest ih =>
      apply ih
      dsimp only
      rw [put_eq_put]
      exact Index.nodup_put distinct entry.1 entry.2

/-- Setting entries leaves the last value of every key. -/
theorem get?_putAll :
    (parameters.putAll entries).get? key = (entries.last? key).or (parameters.get? key) := by
  unfold last?
  induction entries generalizing parameters with
  | nil => rfl
  | cons entry rest ih =>
      change ((parameters.put entry.1 entry.2).putAll rest).get? key = _
      rw [ih, get?_put, List.reverse_cons, get?_append, Option.or_assoc,
        get?_cons, get?_nil]
      split <;> rfl

theorem get?_parse {text : String} : (parse text).get? key = (written text).last? key := by
  rw [parse_eq_putAll, get?_putAll, get?_nil, Option.or_none]

theorem nodup_keys_parse (text : String) : ((parse text).map Prod.fst).Nodup := by
  rw [parse_eq_putAll]
  exact nodup_keys_putAll List.nodup_nil

/-! ## Keys and values -/

theorem get?_eq_none_iff : parameters.get? key = none ↔ ∀ entry ∈ parameters, entry.1 ≠ key := by
  unfold get?
  rw [List.lookup_eq_none_iff]
  refine forall₂_congr fun entry member => ?_
  rw [bne_iff_ne, ne_comm]

/-- A key has a last value if it has any. -/
theorem last?_ne_none_iff : entries.last? key ≠ none ↔ ∃ entry ∈ entries, entry.1 = key := by
  rw [last?, Ne, get?_eq_none_iff]
  simp

/-- Among different keys, the entries are what is found under the keys. -/
theorem get?_eq_some_iff (distinct : (parameters.map Prod.fst).Nodup) :
    parameters.get? key = some value ↔ (key, value) ∈ parameters := by
  constructor
  · exact mem_of_lookup
  · intro member
    cases found : parameters.get? key with
    | none => exact (get?_eq_none_iff.mp found _ member rfl).elim
    | some other =>
        have same := List.inj_on_of_nodup_map distinct member (mem_of_lookup found) rfl
        rw [(Prod.mk.inj same).2]

theorem nodup_keys_without (distinct : (parameters.map Prod.fst).Nodup) (other : String) :
    ((parameters.without other).map Prod.fst).Nodup :=
  distinct.sublist (List.filter_sublist.map _)

end ServiceDoc.Parameters
