import ServiceDoc.Proofs.Operation.Agree
import ServiceDoc.Proofs.Operation.Query
import Mathlib.Data.List.Dedup

/-!
# How deep query parameters nest

The counts of a way can be held in one table that all calls share: a call raises the count of a
field for the call inside it and sets it back when that returns. Calls inside each other raise
different counts or the same one again, and none above the limit, so they nest no deeper than the
product of the limit and of the different names. A call that is measured by what is left of that
product relies on every call inside it to leave the table as it was.
-/

namespace ServiceDoc

open Build

namespace Depths

/-- Set how often a field is being expanded. -/
def put (depths : Depths) (field : String) (number : Int) : Depths := (field, number) :: depths

/-- A count that is raised and set back is what it was, and so are the others. -/
theorem count_put_of_enter {depths after : Depths} {field : String}
    (same : ∀ name, after.count name = (depths.enter field).count name) (name : String) :
    (after.put field (depths.count field)).count name = depths.count name := by
  by_cases this : name = field
  · rw [this]
    simp [put, count]
  · have others := (same name).trans (count_enter_of_ne depths this)
    simpa [put, count, List.lookup_cons, beq_eq_false_iff_ne.mpr this] using others

/-- Tables with the same counts have the same counts when a field is entered. -/
theorem count_enter_congr {depths shared : Depths}
    (same : ∀ name, shared.count name = depths.count name) (field name : String) :
    (shared.enter field).count name = (depths.enter field).count name := by
  by_cases this : name = field
  · rw [this, count_enter_self, count_enter_self, same]
  · rw [count_enter_of_ne shared this, count_enter_of_ne depths this, same]

end Depths

namespace Config

variable (config : Config) (registry : Registry)

/-- The query parameters of the fields of a message, and the counts after them. For each call the
count of its field is raised, and set back behind it. -/
def expandEach (call : Depths → MessageField → Build (Option (List Parameter × Depths)))
    (outer description : String) :
    List MessageField → Depths → Build (Option (List Parameter × Depths))
  | [], depths => return some ([], depths)
  | inner :: rest, depths => do
    if config.depth ≤ depths.count inner.fullName then expandEach call outer description rest depths
    else do
      let some (parameters, after) ← call (depths.enter inner.fullName) inner | return none
      let restored := after.put inner.fullName (depths.count inner.fullName)
      let some (others, ended) ← expandEach call outer description rest restored | return none
      return some (parameters.map (within outer description) ++ others, ended)

/-- The query parameters of a field, and the counts after them, where all calls share one table of
counts. There are none if calls nest deeper than the limit. -/
def expandShared : (limit : Nat) → Depths → MessageField →
    Build (Option (List Parameter × Depths))
  | 0, _, _ => return none
  | limit + 1, depths, field => do
    if registry.isMap field then return some ([], depths)
    if !field.isMessage then return some ([← config.leafParameter registry field], depths)
    match registry.messageOf? field with
    | none => do
      Build.report (.unresolvedParameter field.definition.typeName field.fullName)
      return some ([], depths)
    | some message =>
      if field.isRepeated then do
        Build.report (.repeatedParameter field.fullName)
        return some ([], depths)
      else if WellKnown.isQueryLeaf message.fullName then
        return some ([← config.leafParameter registry field], depths)
      else do
        let (description, _) := Parameter.summary (← Build.comment field.description)
        config.expandEach (expandShared limit) (config.fieldName field) description message.fields
          depths

/-- How often the fields of a registry can still be expanded, where fields of one name share their
count. -/
def distinctRoom (depths : Depths) : Nat :=
  ((fieldNames registry).dedup.map fun name => (config.depth - depths.count name).toNat).sum

variable {config registry} {depths shared : Depths} {field : MessageField}

theorem distinctRoom_enter {name : String} (inside : name ∈ fieldNames registry)
    (enters : ¬config.depth ≤ depths.count name) :
    config.distinctRoom registry (depths.enter name) < config.distinctRoom registry depths :=
  sum_room_enter (List.mem_dedup.mpr inside) enters

/-- Where no count is below zero, every name has room for the limit at most. -/
theorem distinctRoom_le (natural : ∀ name, 0 ≤ depths.count name) :
    config.distinctRoom registry depths ≤ config.depth * (fieldNames registry).dedup.length := by
  unfold distinctRoom
  refine (List.sum_le_card_nsmul _ config.depth ?_).trans (by simp [Nat.mul_comm])
  intro room member
  obtain ⟨name, -, rfl⟩ := List.mem_map.mp member
  have bound := natural name
  omega

/-- From a workspace, both ways to count come to the same parameters and the same workspace, and the
shared counts are the same after it. -/
def SharesRun (shared : Depths) (common : Build (Option (List Parameter × Depths)))
    (alone : Build (List Parameter)) : Prop :=
  ∀ work, ∃ parameters after ended,
    common.Runs work (some (parameters, after)) ended ∧ alone.Runs work parameters ended ∧
      ∀ name, after.count name = shared.count name

/-- What expands no field shares its run. -/
theorem SharesRun.of_gives {step : Build (List Parameter)} {parameters : List Parameter}
    (gives : step.Gives parameters) :
    SharesRun shared (do return some (← step, shared)) step := by
  intro work
  obtain ⟨ended, runs⟩ := gives work
  exact ⟨parameters, shared, ended, runs_bind.mpr ⟨_, _, runs, runs_pure.mpr ⟨rfl, rfl⟩⟩, runs,
    fun _ => rfl⟩

/-- The fields of a message share their run if the calls for those of them that can be entered do.
-/
theorem sharesRun_expandEach
    {call : Depths → MessageField → Build (Option (List Parameter × Depths))}
    {alone : MessageField → Build (List Parameter)} {outer description : String}
    {fields : List MessageField} (same : ∀ name, shared.count name = depths.count name)
    (calls : ∀ inner ∈ fields, ¬config.depth ≤ depths.count inner.fullName →
      ∀ reached : Depths, (∀ name, reached.count name = depths.count name) →
        SharesRun (reached.enter inner.fullName) (call (reached.enter inner.fullName) inner)
          (alone inner)) :
    SharesRun shared (config.expandEach call outer description fields shared) (do
      let expanded ← fields.mapM fun inner => do
        if config.depth ≤ depths.count inner.fullName then return []
        let parameters ← alone inner
        return parameters.map (within outer description)
      return expanded.flatten) := by
  induction fields generalizing shared with
  | nil =>
      intro work
      exact ⟨[], shared, work, runs_pure.mpr ⟨rfl, rfl⟩,
        runs_bind.mpr ⟨[], work, runs_pure.mpr ⟨rfl, rfl⟩, runs_pure.mpr ⟨rfl, rfl⟩⟩, fun _ => rfl⟩
  | cons inner rest ih =>
      have later {reached : Depths} (kept : ∀ name, reached.count name = depths.count name) :=
        ih kept fun other member => calls other (.tail _ member)
      intro work
      simp only [expandEach, List.mapM_cons, same inner.fullName]
      by_cases often : config.depth ≤ depths.count inner.fullName
      · simp only [if_pos often, pure_bind, bind_assoc]
        obtain ⟨others, ended, after, common, apart, restored⟩ := later same work
        refine ⟨others, ended, after, common, ?_, restored⟩
        simpa using apart
      · simp only [if_neg often]
        obtain ⟨parameters, reached, between, called, made, returned⟩ :=
          calls inner (.head _) often shared same work
        -- The call left the raised count, so what was read before it is what it is set back to.
        have restored := Depths.count_put_of_enter returned
        rw [same inner.fullName] at restored
        obtain ⟨others, after, ended, common, apart, kept⟩ :=
          later (fun name => (restored name).trans (same name)) between
        refine ⟨parameters.map (within outer description) ++ others, after, ended, ?_, ?_,
          fun name => (kept name).trans (restored name)⟩
        · exact runs_bind.mpr ⟨_, _, called, runs_bind.mpr ⟨_, _, common,
            runs_pure.mpr ⟨rfl, rfl⟩⟩⟩
        · simp only [runs_bind, runs_pure] at apart ⊢
          obtain ⟨values, last, rounds, rfl, rfl⟩ := apart
          exact ⟨_, _, ⟨_, _, ⟨_, _, made, rfl, rfl⟩, _, _, rounds, rfl, rfl⟩, rfl, rfl⟩

/-- With more room than the nesting takes, a field whose calls share their counts is expanded as one
whose calls have their own. -/
theorem sharesRun_expandField (readable : registry.Readable) {limit fuel : Nat}
    (commented : field.comment.IsReadable) (same : ∀ name, shared.count name = depths.count name)
    (enough : config.distinctRoom registry depths < limit)
    (plenty : config.distinctRoom registry depths < fuel) :
    SharesRun shared (config.expandShared registry limit shared field)
      (config.expandField registry fuel depths field) := by
  induction limit generalizing fuel depths shared field with
  | zero => exact absurd enough (Nat.not_lt_zero _)
  | succ limit ih =>
      obtain ⟨fuel, rfl⟩ := Nat.exists_eq_succ_of_ne_zero (Nat.ne_zero_of_lt plenty)
      have leaf (leaf : registry.IsLeaf field) : SharesRun shared
          (do return some ([← config.leafParameter registry field], shared))
          (do return [← config.leafParameter registry field]) := by
        obtain ⟨parameters, made, -⟩ : ∃ parameters,
            (do return [← config.leafParameter registry field] :
              Build (List Parameter)).Gives parameters ∧ _ := leaf_gives readable commented leaf
        simpa using SharesRun.of_gives made
      have reported (notice : Notice) : SharesRun shared
          (do Build.report notice; return some ([], shared))
          (do Build.report notice; return []) := by
        have made : (do Build.report notice; return [] : Build (List Parameter)).Gives [] :=
          (gives_report notice).bind (gives_pure [])
        simpa using SharesRun.of_gives made
      rw [expandShared, expandField]
      by_cases map : registry.isMap field = true
      · rw [if_pos map, if_pos map]
        exact SharesRun.of_gives (gives_pure [])
      rw [if_neg map, if_neg map]
      by_cases other : (!field.isMessage) = true
      · rw [if_pos other, if_pos other]
        exact leaf (.inl (by simpa using other))
      rw [if_neg other, if_neg other]
      cases found : registry.messageOf? field with
      | none =>
          exact reported _
      | some message =>
          dsimp only
          by_cases several : field.isRepeated = true
          · rw [if_pos several, if_pos several]
            exact reported _
          rw [if_neg several, if_neg several]
          by_cases closed : WellKnown.isQueryLeaf message.fullName = true
          · rw [if_pos closed, if_pos closed]
            exact leaf (.inr ⟨eq_false_of_ne_true several, message, found, closed⟩)
          rw [if_neg closed, if_neg closed]
          obtain ⟨text, read⟩ := commented
          have member := Registry.mem_of_message? (Registry.message?_of_messageOf? found)
          have calls (inner : MessageField) (inside : inner ∈ message.fields)
              (enters : ¬config.depth ≤ depths.count inner.fullName) (reached : Depths)
              (kept : ∀ name, reached.count name = depths.count name) :
              SharesRun (reached.enter inner.fullName)
                (config.expandShared registry limit (reached.enter inner.fullName) inner)
                (config.expandField registry fuel (depths.enter inner.fullName) inner) := by
            have among : inner.fullName ∈ fieldNames registry :=
              List.mem_flatMap.mpr ⟨_, member, List.mem_map_of_mem inside⟩
            have less : config.distinctRoom registry _ < config.distinctRoom registry depths :=
              distinctRoom_enter among enters
            exact ih (readable.fields _ member inner inside)
              (Depths.count_enter_congr kept inner.fullName) (by omega) (by omega)
          have expanded : SharesRun shared (config.expandEach (config.expandShared registry limit)
              (config.fieldName field) (Parameter.summary text).1 message.fields shared) _ :=
            sharesRun_expandEach same calls
          intro work
          obtain ⟨parameters, after, ended, common, apart, restored⟩ := expanded work
          exact ⟨parameters, after, ended,
            runs_bind.mpr ⟨text, work, runs_comment.mpr ⟨read, rfl⟩, common⟩,
            runs_bind.mpr ⟨text, work, runs_comment.mpr ⟨read, rfl⟩, apart⟩, restored⟩

/-- Calls that share their counts, none of them below zero, nest no deeper than one more than the
limit times the different names of fields. They come to the query parameters, and every count is
then what it was. -/
theorem expandShared_returns (config : Config) {registry : Registry} {field : MessageField}
    {depths : Depths} {limit : Nat} (readable : registry.Readable)
    (commented : field.comment.IsReadable) (natural : ∀ name, 0 ≤ depths.count name)
    (allowed : 1 + config.depth * (fieldNames registry).dedup.length ≤ limit)
    (work : Workspace) :
    ∃ parameters after ended,
      (config.expandShared registry limit depths field).Runs work (some (parameters, after)) ended ∧
      (config.queryParameters registry depths field).Runs work parameters ended ∧
      ∀ name, after.count name = depths.count name := by
  have room : config.distinctRoom registry depths ≤ _ := distinctRoom_le natural
  refine sharesRun_expandField readable commented (fun _ => rfl) (by omega) ?_ work
  have fewer : (fieldNames registry).dedup.length ≤ fieldCount registry := by
    rw [← length_fieldNames]
    exact (List.dedup_sublist _).length_le
  calc config.distinctRoom registry depths
      ≤ config.depth * (fieldNames registry).dedup.length := room
    _ ≤ (config.depth + depths.slack) * fieldCount registry :=
        Nat.mul_le_mul (Nat.le_add_right _ _) fewer
    _ < (config.depth + depths.slack) * fieldCount registry + 1 := Nat.lt_succ_self _

/-- A library whose fields are expanded twice. -/
def twiceConfig : Config := { libraryConfig with depth := 2, depth_pos := by decide }

/-- For a book that can hold another book, while a sequel is being expanded, calls nest no deeper
than eleven: five fields are expanded twice. -/
theorem bookField_returns :
    let sequel : Depths := [("library.Book.sequel", 1)]
    let start : Workspace := ⟨.empty .document, [], [], []⟩
    ∃ parameters after ended,
      (twiceConfig.expandShared libraryRegistry 11 sequel bookField).Runs start
        (some (parameters, after)) ended ∧
      (twiceConfig.queryParameters libraryRegistry sequel bookField).Runs start parameters ended ∧
      ∀ name, after.count name = sequel.count name := by
  intro sequel start
  have readable : libraryRegistry.Readable := by decide +kernel
  have commented : bookField.comment.IsReadable := by decide +kernel
  have natural (name : String) : 0 ≤ sequel.count name := by
    by_cases this : name = "library.Book.sequel"
    · simp [sequel, Depths.count, this]
    · simp [sequel, Depths.count, List.lookup_cons, beq_eq_false_iff_ne.mpr this]
  have allowed : 1 + twiceConfig.depth * (fieldNames libraryRegistry).dedup.length ≤ 11 := by
    decide +kernel
  exact expandShared_returns twiceConfig readable commented natural allowed start

end Config

end ServiceDoc
