import ServiceDoc.Operation.Query
import ServiceDoc.Proofs.Registry.Index
import Mathlib.Data.List.Lex
import Mathlib.Data.List.Nodup

/-!
# Ways to query parameters

A way leads from a field through the fields of messages to a field that is one query parameter. The
ways that expand no field too often are listed depth first, in the order in which fields are
declared; fuel that exceeds their length lists all of them.
-/

namespace ServiceDoc

/-- The steps of a way: fields and their positions in the messages that have them. -/
abbrev Way := List (MessageField × Nat)

namespace Way

/-- The fields of a way behind its start. -/
def fields (way : Way) : List MessageField := way.map Prod.fst

/-- The full names of the fields of a way behind its start. -/
def fullNames (way : Way) : List String := way.fields.map MessageField.fullName

/-- The positions of the fields of a way. -/
def positions (way : Way) : List Nat := way.map Prod.snd

/-- The field that a way leads to. -/
def last (start : MessageField) (way : Way) : MessageField := way.fields.getLastD start

theorem fields_cons (step : MessageField × Nat) (way : Way) :
    Way.fields (step :: way) = step.1 :: way.fields := rfl

theorem fullNames_cons (step : MessageField × Nat) (way : Way) :
    Way.fullNames (step :: way) = step.1.fullName :: way.fullNames := rfl

theorem last_cons (start : MessageField) (step : MessageField × Nat) (way : Way) :
    Way.last start (step :: way) = way.last step.1 := by
  unfold last
  rw [fields_cons]
  cases way with
  | nil => rfl
  | cons next rest => rfl

end Way

namespace Registry

variable (registry : Registry)

/-- A field that is one query parameter: it holds no message, or one message that is not expanded.
-/
def IsLeaf (field : MessageField) : Prop :=
  field.isMessage = false ∨ (field.isRepeated = false ∧
    ∃ message, registry.messageOf? field = some message ∧
      WellKnown.isQueryLeaf message.fullName = true)

/-- A field that is expanded to the fields of the message that it holds. -/
def ExpandsTo (field : MessageField) (message : Message) : Prop :=
  field.isRepeated = false ∧ registry.messageOf? field = some message ∧
    WellKnown.isQueryLeaf message.fullName = false

/-- A way leads from a field through expanded fields to one that is one query parameter. -/
inductive Leads : MessageField → Way → Prop where
  | leaf {field : MessageField} (leaf : registry.IsLeaf field) : Leads field []
  /-- A field of the message that the field holds leads on. -/
  | step {field inner : MessageField} {message : Message} {position : Nat} {way : Way}
      (expands : registry.ExpandsTo field message) (inside : message.fields[position]? = some inner)
      (rest : Leads inner way) : Leads field ((inner, position) :: way)

end Registry

namespace Config

variable (config : Config) (registry : Registry)

/-- The ways from a field that expand no field too often, when some fields are being expanded
already. -/
def waysFrom : (fuel : Nat) → Depths → MessageField → List Way
  | 0, _, _ => []
  | fuel + 1, depths, field =>
    if registry.isMap field then []
    else if !field.isMessage then [[]]
    else match registry.messageOf? field with
      | none => []
      | some message =>
        if field.isRepeated then []
        else if WellKnown.isQueryLeaf message.fullName then [[]]
        else message.fields.zipIdx.flatMap fun step =>
          if config.depth ≤ depths.count step.1.fullName then []
          else (waysFrom fuel (depths.enter step.1.fullName) step.1).map (step :: ·)

/-- A way expands no field more often than the configuration allows, counting how often it is being
expanded already. -/
def Fits (depths : Depths) (way : Way) : Prop :=
  ∀ name ∈ way.fullNames, depths.count name + way.fullNames.count name ≤ config.depth

end Config

variable {config : Config} {registry : Registry} {depths : Depths} {field : MessageField}
  {way : Way}

theorem Registry.isMap_eq_false (registry : Registry) (single : field.isRepeated = false) :
    registry.isMap field = false := by
  simp [isMap, mapEntry?, single]

theorem Registry.isMap_eq_false_of_isMessage (registry : Registry)
    (other : field.isMessage = false) :
    registry.isMap field = false := by
  simp [isMap, mapEntry?, messageOf?, other]

theorem Registry.isMessage_of_messageOf? {message : Message}
    (found : registry.messageOf? field = some message) : field.isMessage = true := by
  unfold messageOf? at found
  split at found
  · assumption
  · contradiction

namespace Config

/-- A way whose first field is entered fits if the field can be entered and the rest fits then. -/
theorem fits_cons {step : MessageField × Nat} : config.Fits depths (step :: way) ↔
    depths.count step.1.fullName < config.depth ∧
      config.Fits (depths.enter step.1.fullName) way := by
  unfold Fits
  rw [Way.fullNames_cons]
  constructor
  · intro fits
    have first := fits step.1.fullName (.head _)
    rw [List.count_cons_self] at first
    refine ⟨by omega, fun name member => ?_⟩
    have later := fits name (.tail _ member)
    by_cases same : name = step.1.fullName
    · subst same
      rw [Depths.count_enter_self]
      omega
    · rw [Depths.count_enter_of_ne depths same]
      rwa [List.count_cons_of_ne (Ne.symm same)] at later
  · rintro ⟨first, rest⟩ name member
    by_cases same : name = step.1.fullName
    · subst same
      rw [List.count_cons_self]
      by_cases again : step.1.fullName ∈ way.fullNames
      · have later := rest _ again
        rw [Depths.count_enter_self] at later
        omega
      · rw [List.count_eq_zero_of_not_mem again]
        omega
    · have later := rest name ((List.mem_cons.mp member).resolve_left same)
      rw [Depths.count_enter_of_ne depths same] at later
      rwa [List.count_cons_of_ne (Ne.symm same)]

/-- From the start, a way fits if no field is on it too often. -/
theorem fits_nil : config.Fits [] way ↔ ∀ name, way.fullNames.count name ≤ config.depth := by
  have start (name : String) : Depths.count [] name = 0 := rfl
  constructor
  · intro fits name
    by_cases member : name ∈ way.fullNames
    · have bound := fits name member
      rw [start] at bound
      omega
    · rw [List.count_eq_zero_of_not_mem member]
      exact Nat.zero_le _
  · intro rare name _
    have bound := rare name
    rw [start]
    omega

theorem waysFrom_leaf {fuel : Nat} (leaf : registry.IsLeaf field) :
    config.waysFrom registry (fuel + 1) depths field = [[]] := by
  rw [waysFrom]
  rcases leaf with other | ⟨single, message, found, leaf⟩
  · rw [Registry.isMap_eq_false_of_isMessage registry other]
    simp [other]
  · rw [Registry.isMap_eq_false registry single, Registry.isMessage_of_messageOf? found]
    simp [found, single, leaf]

theorem waysFrom_expands {fuel : Nat} {message : Message}
    (expands : registry.ExpandsTo field message) :
    config.waysFrom registry (fuel + 1) depths field =
      message.fields.zipIdx.flatMap fun step =>
        if config.depth ≤ depths.count step.1.fullName then []
        else (config.waysFrom registry fuel (depths.enter step.1.fullName) step.1).map
          (step :: ·) := by
  obtain ⟨single, found, opened⟩ := expands
  rw [waysFrom, Registry.isMap_eq_false registry single, Registry.isMessage_of_messageOf? found]
  simp [found, single, opened]

/-- A field is a parameter, or it is expanded, or it is left out. -/
theorem waysFrom_cases (config : Config) (registry : Registry) (field : MessageField) :
    registry.IsLeaf field ∨ (∃ message, registry.ExpandsTo field message) ∨
      ((¬∃ way, registry.Leads field way) ∧
        ∀ fuel depths, config.waysFrom registry fuel depths field = []) := by
  have left_out (idle : ¬registry.IsLeaf field ∧ ∀ message, ¬registry.ExpandsTo field message)
      (empty : ∀ fuel depths, config.waysFrom registry (fuel + 1) depths field = []) :
      (¬∃ way, registry.Leads field way) ∧
        ∀ fuel depths, config.waysFrom registry fuel depths field = [] := by
    constructor
    · rintro ⟨way, leads⟩
      cases leads with
      | leaf leaf => exact idle.1 leaf
      | step expands => exact idle.2 _ expands
    · intro fuel depths
      cases fuel with
      | zero => rfl
      | succ fuel => exact empty fuel depths
  by_cases kind : field.isMessage = true
  · cases found : registry.messageOf? field with
    | none =>
        exact .inr (.inr (left_out (by simp [Registry.IsLeaf, Registry.ExpandsTo, found, kind])
          fun fuel depths => by simp [waysFrom, found, kind]))
    | some message =>
        by_cases single : field.isRepeated = true
        · exact .inr (.inr (left_out (by simp [Registry.IsLeaf, Registry.ExpandsTo, kind, single])
            fun fuel depths => by simp [waysFrom, found, kind, single]))
        · have single := eq_false_of_ne_true single
          cases leaf : WellKnown.isQueryLeaf message.fullName with
          | true => exact .inl (.inr ⟨single, message, found, leaf⟩)
          | false => exact .inr (.inl ⟨message, single, found, leaf⟩)
  · exact .inl (.inl (eq_false_of_ne_true kind))

/-- No field is both a parameter and expanded. -/
theorem not_expandsTo_of_isLeaf {message : Message} (leaf : registry.IsLeaf field) :
    ¬registry.ExpandsTo field message := by
  rintro ⟨-, found, opened⟩
  rcases leaf with other | ⟨-, again, found_again, leaf⟩
  · simp [Registry.isMessage_of_messageOf? found] at other
  · rw [found] at found_again
    rw [← Option.some.inj found_again, opened] at leaf
    contradiction

theorem leads_iff_of_isLeaf (leaf : registry.IsLeaf field) :
    registry.Leads field way ↔ way = [] := by
  constructor
  · intro leads
    cases leads with
    | leaf => rfl
    | step expands => exact (not_expandsTo_of_isLeaf leaf expands).elim
  · rintro rfl
    exact .leaf leaf

/-- A way from a field that is expanded starts with a field of its message. -/
theorem leads_iff_of_expandsTo {message : Message} (expands : registry.ExpandsTo field message) :
    registry.Leads field way ↔ ∃ step ∈ message.fields.zipIdx, ∃ rest,
      registry.Leads step.1 rest ∧ way = step :: rest := by
  constructor
  · intro leads
    cases leads with
    | leaf leaf => exact (not_expandsTo_of_isLeaf leaf expands).elim
    | @step _ inner again position rest expands_again inside leads =>
        have same := Option.some.inj (expands.2.1.symm.trans expands_again.2.1)
        subst same
        exact ⟨(inner, position), List.mk_mem_zipIdx_iff_getElem?.mpr inside, rest, leads, rfl⟩
  · rintro ⟨⟨inner, position⟩, member, rest, leads, rfl⟩
    exact .step expands (List.mk_mem_zipIdx_iff_getElem?.mp member) leads

/-- The listed ways are those that lead from the field, fit, and are shorter than the fuel. -/
theorem mem_waysFrom {fuel : Nat} : way ∈ config.waysFrom registry fuel depths field ↔
    registry.Leads field way ∧ config.Fits depths way ∧ way.length < fuel := by
  induction fuel generalizing depths field way with
  | zero => simp [waysFrom]
  | succ fuel ih =>
      rcases waysFrom_cases config registry field with leaf | ⟨message, expands⟩ | ⟨idle, empty⟩
      · rw [waysFrom_leaf leaf, List.mem_singleton, leads_iff_of_isLeaf leaf]
        refine ⟨?_, And.left⟩
        rintro rfl
        exact ⟨rfl, fun _ member => (List.not_mem_nil member).elim, Nat.succ_pos _⟩
      · rw [waysFrom_expands expands, leads_iff_of_expandsTo expands, List.mem_flatMap]
        constructor
        · rintro ⟨step, member, listed⟩
          split at listed
          · exact (List.not_mem_nil listed).elim
          next enters =>
            obtain ⟨rest, among, rfl⟩ := List.mem_map.mp listed
            obtain ⟨leads, fits, short⟩ := ih.mp among
            exact ⟨⟨step, member, rest, leads, rfl⟩, fits_cons.mpr ⟨by omega, fits⟩,
              Nat.succ_lt_succ short⟩
        · rintro ⟨⟨step, member, rest, leads, rfl⟩, fits, short⟩
          obtain ⟨enters, fits⟩ := fits_cons.mp fits
          refine ⟨step, member, ?_⟩
          rw [if_neg (by omega)]
          exact List.mem_map_of_mem (ih.mpr ⟨leads, fits, Nat.lt_of_succ_lt_succ short⟩)
      · rw [empty]
        constructor
        · intro member
          exact (List.not_mem_nil member).elim
        · rintro ⟨leads, -⟩
          exact (idle ⟨way, leads⟩).elim

/-! ## Order -/

/-- A way comes before another if it goes on to a field that is declared earlier where they part. -/
def Before (first second : Way) : Prop := List.Lex (· < ·) first.positions second.positions

/-- The ways are listed depth first, in the order in which fields are declared. -/
theorem pairwise_waysFrom {fuel : Nat} :
    (config.waysFrom registry fuel depths field).Pairwise Before := by
  induction fuel generalizing depths field with
  | zero => exact .nil
  | succ fuel ih =>
      rcases waysFrom_cases config registry field with leaf | ⟨message, expands⟩ | ⟨-, empty⟩
      · rw [waysFrom_leaf leaf]
        exact List.pairwise_singleton _ _
      · rw [waysFrom_expands expands, List.pairwise_flatMap]
        constructor
        · intro step _
          split
          · exact .nil
          · refine List.pairwise_map.mpr (ih.imp fun before => ?_)
            exact .cons before
        · refine (pairwise_zipIdx message.fields).imp fun earlier way member other later => ?_
          split at member
          · exact (List.not_mem_nil member).elim
          split at later
          · exact (List.not_mem_nil later).elim
          obtain ⟨rest, -, rfl⟩ := List.mem_map.mp member
          obtain ⟨others, -, rfl⟩ := List.mem_map.mp later
          exact .rel earlier
      · rw [empty]
        exact .nil

/-! ## Length -/

/-- A list whose items are among others, none of them more often than a limit, is not longer than as
often all of them. -/
theorem length_le_of_count_le {α : Type} [DecidableEq α] {limit : Nat} {list items : List α}
    (inside : ∀ item ∈ list, item ∈ items) (rare : ∀ item, list.count item ≤ limit) :
    list.length ≤ limit * items.length := by
  induction items generalizing list with
  | nil =>
      cases list with
      | nil => simp
      | cons item rest => exact (List.not_mem_nil (inside item (.head _))).elim
  | cons item rest ih =>
      have others : (list.filter (· ≠ item)).length ≤ limit * rest.length :=
        ih (fun other member => by
            obtain ⟨member, differ⟩ := List.mem_filter.mp member
            exact (List.mem_cons.mp (inside other member)).resolve_left (of_decide_eq_true differ))
          fun other => (List.filter_sublist.count_le other).trans (rare other)
      have parted : list.length = list.count item + (list.filter (· ≠ item)).length := by
        rw [← List.countP_eq_length_filter, List.count,
          List.length_eq_countP_add_countP (· == item)]
        simp only [beq_iff_eq, decide_not]
      have often := rare item
      rw [List.length_cons, Nat.mul_succ]
      omega

/-- The full names of the fields of all messages of a registry. -/
def fieldNames (registry : Registry) : List String :=
  registry.messages.flatMap fun entry => entry.2.fields.map MessageField.fullName

theorem length_fieldNames (registry : Registry) :
    (fieldNames registry).length = fieldCount registry := by
  unfold fieldNames fieldCount
  induction registry.messages with
  | nil => rfl
  | cons entry rest ih => simp [ih]

/-- The fields of a way behind its start are fields of messages of the registry. -/
theorem mem_messages_of_leads (leads : registry.Leads field way) :
    ∀ inner ∈ way.fields, ∃ entry ∈ registry.messages, inner ∈ entry.2.fields := by
  induction leads with
  | leaf => exact fun _ member => (List.not_mem_nil member).elim
  | step expands inside _ ih =>
      rw [Way.fields_cons, List.forall_mem_cons]
      exact ⟨⟨_, Registry.mem_of_message? (Registry.message?_of_messageOf? expands.2.1),
        List.mem_of_getElem? inside⟩, ih⟩

/-- A way that expands no field too often is shorter than the fuel of the query parameters. -/
theorem length_lt_of_fits (leads : registry.Leads field way) (fits : config.Fits [] way) :
    way.length < (config.depth + Depths.slack []) * fieldCount registry + 1 := by
  have inside : ∀ name ∈ way.fullNames, name ∈ fieldNames registry := by
    intro name member
    obtain ⟨inner, inside, rfl⟩ := List.mem_map.mp member
    obtain ⟨entry, among, declared⟩ := mem_messages_of_leads leads inner inside
    exact List.mem_flatMap.mpr ⟨entry, among, List.mem_map_of_mem declared⟩
  have bound := length_le_of_count_le inside (fits_nil.mp fits)
  have length : way.fullNames.length = way.length := by simp [Way.fullNames, Way.fields]
  have slack : Depths.slack [] = 0 := rfl
  rw [length, length_fieldNames] at bound
  rw [slack]
  exact Nat.lt_succ_of_le bound

end Config

end ServiceDoc
