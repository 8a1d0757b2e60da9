import ServiceDoc.Workspace
import Mathlib.Data.List.Forall2

/-!
# Runs of a build

A step of a build runs from one workspace to a value and another workspace, or fails. A run of a
sequence of steps is a run of the first and a run of the others after it, so that what a whole build
does to the workspace is put together from what its steps do.
-/

namespace ServiceDoc

namespace Build

variable {α β : Type}

/-- A step runs from a workspace to a value and the workspace after it. -/
def Runs (step : Build α) (work : Workspace) (value : α) (after : Workspace) : Prop :=
  step work = .ok value after

variable {step : Build α} {work after : Workspace} {value : α}

/-- A step that comes to a value has a run to this value. -/
theorem exists_runs_of_eq_some (comes : step.run' work = some value) :
    ∃ after, Runs step work value after := by
  have alone : step.run' work = EStateM.run' (fun _ => step work) work := rfl
  rw [alone] at comes
  cases ran : step work with
  | ok other after =>
      rw [ran] at comes
      exact ⟨after, Option.some.inj comes ▸ ran⟩
  | error failure after =>
      rw [ran] at comes
      exact (Option.some_ne_none _ comes.symm).elim

/-- A step that comes to a value has a run. -/
theorem exists_runs_of_isSome (comes : (step.run' work).isSome = true) :
    ∃ value after, Runs step work value after := by
  obtain ⟨value, comes⟩ := Option.isSome_iff_exists.mp comes
  exact ⟨value, exists_runs_of_eq_some comes⟩

@[simp] theorem runs_pure {given : α} :
    Runs (pure given) work value after ↔ value = given ∧ after = work := by
  change EStateM.Result.ok given work = EStateM.Result.ok value after ↔ _
  simp only [EStateM.Result.ok.injEq, eq_comm]

/-- A run of two steps passes through the workspace between them. -/
@[simp] theorem runs_bind {next : α → Build β} {result : β} :
    Runs (step >>= next) work result after ↔
      ∃ value between, Runs step work value between ∧ Runs (next value) between result after := by
  change EStateM.bind step next work = _ ↔ _
  unfold EStateM.bind Runs
  cases first : step work with
  | error failure between => simp
  | ok value between => simp

@[simp] theorem runs_map {change : α → β} {result : β} :
    Runs (change <$> step) work result after ↔
      ∃ value, Runs step work value after ∧ result = change value := by
  rw [map_eq_pure_bind, runs_bind]
  simp only [runs_pure]
  constructor
  · rintro ⟨value, between, first, rfl, rfl⟩
    exact ⟨value, first, rfl⟩
  · rintro ⟨value, first, rfl⟩
    exact ⟨value, after, first, rfl, rfl⟩

@[simp] theorem runs_get {read : Workspace} :
    Runs get work read after ↔ read = work ∧ after = work := by
  change EStateM.Result.ok work work = EStateM.Result.ok read after ↔ _
  simp only [EStateM.Result.ok.injEq, eq_comm]

@[simp] theorem runs_modify {change : Workspace → Workspace} {value : Unit} :
    Runs (modify change) work value after ↔ after = change work := by
  change EStateM.Result.ok PUnit.unit (change work) = EStateM.Result.ok value after ↔ _
  simp only [EStateM.Result.ok.injEq, true_and, eq_comm]

@[simp] theorem runs_throw {failure : Failure} :
    Runs (throw failure : Build α) work value after ↔ False := by
  change EStateM.Result.error failure work = EStateM.Result.ok value after ↔ _
  simp only [reduceCtorEq]

@[simp] theorem runs_fail {failure : Failure} :
    Runs (fail failure : Build α) work value after ↔ False :=
  runs_throw

@[simp] theorem runs_discard {done : Unit} :
    Runs (discard step) work done after ↔ ∃ value, Runs step work value after := by
  change Runs ((fun _ => PUnit.unit) <$> step) work done after ↔ _
  simp only [runs_map, and_true]

/-! ## The steps of a build -/

@[simp] theorem runs_report {notice : Notice} {done : Unit} :
    Runs (report notice) work done after ↔
      after = { work with notices := work.notices ++ [notice] } :=
  runs_modify

@[simp] theorem runs_comment {outcome : Except CommentError α} :
    Runs (comment outcome) work value after ↔ outcome = .ok value ∧ after = work := by
  cases outcome with
  | error error => simp [comment]
  | ok given => simp [comment, eq_comm]

@[simp] theorem runs_annotated {place : String} {loaded : Loading α} :
    Runs (annotated place loaded) work value after ↔
      loaded.outcome = .ok value ∧
        after = { work with notices := work.notices ++ loaded.notices } := by
  unfold annotated
  cases outcome : loaded.outcome with
  | error error => simp
  | ok given => simp [eq_comm, and_comm]

@[simp] theorem runs_modifyDocument {change : Element → Element} {done : Unit} :
    Runs (modifyDocument change) work done after ↔
      after = { work with document := change work.document } :=
  runs_modify

@[simp] theorem runs_changeDocument {change : Element → Except Failure Element} {done : Unit} :
    Runs (changeDocument change) work done after ↔
      ∃ document, change work.document = .ok document ∧ after = { work with document } := by
  unfold changeDocument
  simp only [runs_bind, runs_get]
  constructor
  · rintro ⟨_, _, ⟨same, same_after⟩, changed⟩
    rw [same, same_after] at changed
    cases made : change work.document with
    | error failure =>
        rw [made] at changed
        exact (runs_throw.mp changed).elim
    | ok document =>
        rw [made] at changed
        exact ⟨document, rfl, runs_modifyDocument.mp changed⟩
  · rintro ⟨document, made, rfl⟩
    refine ⟨work, work, ⟨rfl, rfl⟩, ?_⟩
    rw [made]
    exact runs_modifyDocument.mpr rfl

@[simp] theorem runs_require {name : String} {done : Unit} :
    Runs (require name) work done after ↔
      after = if work.required.contains name then work
        else { work with required := work.required ++ [name] } :=
  runs_modify

@[simp] theorem runs_addSchema {name : String} {schema : Element} {added : Bool} :
    Runs (addSchema name schema) work added after ↔
      if name ∈ work.finished then added = false ∧ after = work
      else added = true ∧ after = { work with
        finished := name :: work.finished
        document := Workspace.putSchema work.document name schema } := by
  unfold addSchema
  by_cases done : name ∈ work.finished
  · simp [done]
  · simp [done, and_comm]

/-! ## Loops -/

variable {items : List α}

/-- A loop relates the workspaces at its ends as every round does that the loop comes to, if that is
a preorder; what a round says about its item holds at the end if later rounds keep it. -/
theorem Runs.forM_relates {body : α → Build Unit} (relates : Workspace → Workspace → Prop)
    (tells : Workspace → α → Prop) (refl : ∀ work, relates work work)
    (trans : ∀ {first second third}, relates first second → relates second third →
      relates first third)
    (keep : ∀ {before after item}, relates before after → tells before item → tells after item)
    (round : ∀ item ∈ items, ∀ {before between}, relates work before →
      Runs (body item) before () between → relates before between ∧ tells between item)
    (runs : Runs (items.forM body) work () after) :
    relates work after ∧ ∀ item ∈ items, tells after item := by
  induction items generalizing work with
  | nil =>
      obtain ⟨-, rfl⟩ := runs_pure.mp runs
      exact ⟨refl _, fun _ member => (List.not_mem_nil member).elim⟩
  | cons item rest ih =>
      change Runs (body item >>= fun _ => rest.forM body) work () after at runs
      obtain ⟨_, between, first, later⟩ := runs_bind.mp runs
      obtain ⟨begun, told⟩ := round item (.head _) (refl work) first
      obtain ⟨ended, others⟩ := ih (fun other member _ _ reached =>
        round other (.tail _ member) (trans begun reached)) later
      exact ⟨trans begun ended, List.forall_mem_cons.mpr ⟨keep ended told, others⟩⟩

/-- What every round of a loop preserves, the loop preserves. -/
theorem Runs.forM_preserves {body : α → Build Unit} {holds : Workspace → Prop}
    (kept : ∀ item ∈ items, ∀ {before between},
      holds before → Runs (body item) before () between → holds between)
    (start : holds work) (runs : Runs (items.forM body) work () after) : holds after :=
  (Runs.forM_relates (fun before after => holds before → holds after) (fun _ _ => True)
    (fun _ => id) (fun first second held => second (first held)) (fun _ _ => trivial)
    (fun item member _ _ _ round => ⟨fun held => kept item member held round, trivial⟩)
    runs).1 start

/-- A loop comes to an end if every round does from where an invariant holds, and keeps it. -/
theorem exists_runs_forM {body : α → Build Unit} {holds : Workspace → Prop}
    (round : ∀ item ∈ items, ∀ {before}, holds before →
      ∃ after, Runs (body item) before () after ∧ holds after)
    (start : holds work) : ∃ after, Runs (items.forM body) work () after ∧ holds after := by
  induction items generalizing work with
  | nil => exact ⟨work, runs_pure.mpr ⟨rfl, rfl⟩, start⟩
  | cons item rest ih =>
      obtain ⟨between, first, held⟩ := round item (.head _) start
      obtain ⟨after, later, kept⟩ := ih (fun other member => round other (.tail _ member)) held
      exact ⟨after, runs_bind.mpr ⟨(), between, first, later⟩, kept⟩

/-- A loop that gathers values relates the workspaces at its ends as every round does, if that is a
preorder; what a round says about its item and its value holds at the end if later rounds keep
it. -/
theorem Runs.mapM_relates {body : α → Build β} (relates : Workspace → Workspace → Prop)
    (tells : Workspace → α → β → Prop) (refl : ∀ work, relates work work)
    (trans : ∀ {first second third}, relates first second → relates second third →
      relates first third)
    (keep : ∀ {before after item value}, relates before after → tells before item value →
      tells after item value)
    (round : ∀ item ∈ items, ∀ {before value between}, Runs (body item) before value between →
      relates before between ∧ tells between item value)
    {values : List β} (runs : Runs (items.mapM body) work values after) :
    relates work after ∧ List.Forall₂ (tells after) items values := by
  induction items generalizing work values with
  | nil =>
      obtain ⟨rfl, rfl⟩ := runs_pure.mp runs
      exact ⟨refl _, .nil⟩
  | cons item rest ih =>
      rw [List.mapM_cons] at runs
      simp only [runs_bind, runs_pure] at runs
      obtain ⟨value, between, first, others, _, later, rfl, rfl⟩ := runs
      obtain ⟨begun, told⟩ := round item (.head _) first
      obtain ⟨ended, rest⟩ := ih (fun other member => round other (.tail _ member)) later
      exact ⟨trans begun ended, .cons (keep ended told) rest⟩

end Build

/-- What relates every item to a value holds of every item. -/
theorem forall_of_forall₂ {α β : Type} {holds : α → Prop} {items : List α} {values : List β}
    (related : List.Forall₂ (fun item _ => holds item) items values) :
    ∀ item ∈ items, holds item := by
  induction related with
  | nil => exact fun _ member => (List.not_mem_nil member).elim
  | cons first _ ih => exact List.forall_mem_cons.mpr ⟨first, ih⟩

end ServiceDoc
