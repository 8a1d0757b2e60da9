import ServiceDoc.Proofs.Build.Run

/-!
# Values that do not depend on the workspace

A step gives a value if it runs to that value from every workspace. It is steady if it gives
whatever it runs to, so that a run from any workspace tells what all other runs come to.
-/

namespace ServiceDoc

namespace Build

variable {α β : Type} {step : Build α} {value : α}

/-- A step runs to a value from every workspace. -/
def Gives (step : Build α) (value : α) : Prop :=
  ∀ work, ∃ after, Runs step work value after

/-- What a step runs to from one workspace it runs to from all. -/
def Steady (step : Build α) : Prop :=
  ∀ ⦃work value after⦄, Runs step work value after → Gives step value

theorem gives_pure (value : α) : Gives (pure value) value :=
  fun work => ⟨work, runs_pure.mpr ⟨rfl, rfl⟩⟩

theorem Gives.bind {next : α → Build β} {result : β} (first : Gives step value)
    (second : Gives (next value) result) : Gives (step >>= next) result := by
  intro work
  obtain ⟨between, run⟩ := first work
  obtain ⟨after, rest⟩ := second between
  exact ⟨after, runs_bind.mpr ⟨value, between, run, rest⟩⟩

theorem gives_report (notice : Notice) : Gives (report notice) () :=
  fun _ => ⟨_, runs_report.mpr rfl⟩

theorem gives_require (name : String) : Gives (require name) () :=
  fun _ => ⟨_, runs_require.mpr rfl⟩

theorem gives_comment {outcome : Except CommentError α} (read : outcome = .ok value) :
    Gives (comment outcome) value :=
  fun work => ⟨work, runs_comment.mpr ⟨read, rfl⟩⟩

theorem gives_annotated {place : String} {loaded : Loading α} (loads : loaded.outcome = .ok value) :
    Gives (annotated place loaded) value :=
  fun _ => ⟨_, runs_annotated.mpr ⟨loads, rfl⟩⟩

/-- Rounds that give values together give a list of values. -/
theorem Gives.mapM {items : List α} {body : α → Build β} {relates : α → β → Prop}
    (round : ∀ item ∈ items, ∃ value, Gives (body item) value ∧ relates item value) :
    ∃ values, Gives (items.mapM body) values ∧ List.Forall₂ relates items values := by
  induction items with
  | nil => exact ⟨[], gives_pure [], .nil⟩
  | cons item rest ih =>
      obtain ⟨value, first, related⟩ := round item (.head _)
      obtain ⟨values, others, each⟩ := ih fun other member => round other (.tail _ member)
      refine ⟨value :: values, ?_, .cons related each⟩
      rw [List.mapM_cons]
      exact first.bind (others.bind (gives_pure _))

/-- A loop whose rounds give values gives a value. -/
theorem Gives.foldlM {items : List β} {body : α → β → Build α}
    (round : ∀ item ∈ items, ∀ start, ∃ value, Gives (body start item) value) (start : α) :
    ∃ value, Gives (items.foldlM body start) value := by
  induction items generalizing start with
  | nil => exact ⟨start, gives_pure start⟩
  | cons item rest ih =>
      obtain ⟨value, first⟩ := round item (.head _) start
      obtain ⟨last, others⟩ := ih (fun other member => round other (.tail _ member)) value
      rw [List.foldlM_cons]
      exact ⟨last, first.bind others⟩

/-! ## Steady steps -/

theorem steady_pure (value : α) : Steady (pure value) := by
  intro work result after runs
  obtain ⟨rfl, -⟩ := runs_pure.mp runs
  exact gives_pure _

theorem Steady.bind {next : α → Build β} (first : Steady step)
    (second : ∀ value, Steady (next value)) : Steady (step >>= next) := by
  intro work result after runs
  obtain ⟨value, between, run, rest⟩ := runs_bind.mp runs
  exact (first run).bind (second value rest)

theorem steady_fail (failure : Failure) : Steady (fail failure : Build α) :=
  fun _ _ _ runs => (runs_fail.mp runs).elim

theorem steady_report (notice : Notice) : Steady (report notice) :=
  fun _ _ _ _ => gives_report notice

theorem steady_require (name : String) : Steady (require name) :=
  fun _ _ _ _ => gives_require name

theorem steady_comment (outcome : Except CommentError α) : Steady (comment outcome) :=
  fun _ _ _ runs => gives_comment (runs_comment.mp runs).1

theorem steady_annotated (place : String) (loaded : Loading α) :
    Steady (annotated place loaded) :=
  fun _ _ _ runs _ => ⟨_, runs_annotated.mpr ⟨(runs_annotated.mp runs).1, rfl⟩⟩

theorem Steady.foldlM {items : List β} {body : α → β → Build α} (round : ∀ value item,
    Steady (body value item)) (start : α) : Steady (items.foldlM body start) := by
  induction items generalizing start with
  | nil => exact steady_pure start
  | cons item rest ih =>
      rw [List.foldlM_cons]
      exact (round start item).bind ih

theorem Steady.mapM {items : List α} {body : α → Build β} (round : ∀ item, Steady (body item)) :
    Steady (items.mapM body) := by
  induction items with
  | nil => exact steady_pure []
  | cons item rest ih =>
      rw [List.mapM_cons]
      exact (round item).bind fun _ => ih.bind fun _ => steady_pure _

/-- A step is steady behind one whose value it does not use. -/
theorem Steady.after {next : Build β} (comes : ∀ work, ∃ value after, Runs step work value after)
    (second : Steady next) : Steady (step >>= fun _ => next) := by
  intro work result ended runs start
  obtain ⟨_, between, -, rest⟩ := runs_bind.mp runs
  obtain ⟨value, after, first⟩ := comes start
  obtain ⟨last, again⟩ := second rest after
  exact ⟨last, runs_bind.mpr ⟨value, after, first, again⟩⟩

theorem exists_runs_addSchema (name : String) (schema : Element) (work : Workspace) :
    ∃ added after, Runs (addSchema name schema) work added after := by
  by_cases done : name ∈ work.finished
  · exact ⟨_, _, runs_addSchema.mpr (by rw [if_pos done]; exact ⟨rfl, rfl⟩)⟩
  · exact ⟨_, _, runs_addSchema.mpr (by rw [if_neg done]; exact ⟨rfl, rfl⟩)⟩

/-- No step gives two values. -/
theorem Gives.unique {other : α} (first : Gives step value) (second : Gives step other) :
    value = other := by
  obtain ⟨after, run⟩ := first { document := default }
  obtain ⟨ended, rerun⟩ := second { document := default }
  have same := run.symm.trans rerun
  simp only [EStateM.Result.ok.injEq] at same
  exact same.1

end Build

end ServiceDoc
