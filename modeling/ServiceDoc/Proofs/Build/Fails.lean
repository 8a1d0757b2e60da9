import ServiceDoc.Proofs.Build.Gives

/-!
# Ways to fail

A step that does not run to a value ends in a failure. Which failures these can be follows from its
parts: of a sequence of steps either the first fails, or the others do after it ran.
-/

namespace ServiceDoc

namespace Build

variable {α β : Type} {step : Build α}

/-- A step runs to a value or ends in a failure. -/
theorem runs_or_fails (step : Build α) (work : Workspace) :
    (∃ value after, Runs step work value after) ∨
      ∃ failure after, step work = .error failure after := by
  cases came : step work with
  | ok value after => exact .inl ⟨value, after, came⟩
  | error failure after => exact .inr ⟨failure, after, rfl⟩

/-- A step ends in no failures but some, wherever it starts. -/
def FailsOnly (step : Build α) (allowed : Failure → Prop) : Prop :=
  ∀ ⦃work failure after⦄, step work = .error failure after → allowed failure

namespace FailsOnly

variable {allowed other : Failure → Prop}

theorem mono (fails : FailsOnly step allowed) (wider : ∀ failure, allowed failure → other failure) :
    FailsOnly step other :=
  fun _ failure _ failed => wider failure (fails failed)

/-- A step that runs from everywhere does not fail. -/
theorem ofRuns (comes : ∀ work, ∃ value after, Runs step work value after) :
    FailsOnly step allowed := by
  intro work failure after failed
  obtain ⟨value, ended, runs⟩ := comes work
  cases runs.symm.trans failed

theorem ofGives {value : α} (gives : Gives step value) : FailsOnly step allowed :=
  ofRuns fun work => ⟨value, gives work⟩

theorem pure (value : α) : FailsOnly (pure value) allowed := ofGives (gives_pure value)

theorem report (notice : Notice) : FailsOnly (report notice) allowed :=
  ofGives (gives_report notice)

theorem require (name : String) : FailsOnly (require name) allowed :=
  ofGives (gives_require name)

theorem addSchema (name : String) (schema : Element) : FailsOnly (addSchema name schema) allowed :=
  ofRuns (exists_runs_addSchema name schema)

theorem fail {failure : Failure} (holds : allowed failure) :
    FailsOnly (fail failure : Build α) allowed := by
  rintro work other after ⟨⟩
  exact holds

theorem comment {outcome : Except CommentError α} (each : ∀ error, allowed (.comment error)) :
    FailsOnly (comment outcome) allowed := by
  cases outcome with
  | ok value => exact pure value
  | error error => exact fail (each error)

/-- What is loaded from an annotation is refused for the error that loading it ended in. -/
theorem annotated {place : String} {loaded : Loading α}
    (each : ∀ error, loaded.outcome = .error error → allowed (.payload place error)) :
    FailsOnly (annotated place loaded) allowed := by
  intro work failure after failed
  unfold Build.annotated at failed
  cases outcome : loaded.outcome with
  | ok value =>
      rw [outcome] at failed
      cases failed
  | error error =>
      rw [outcome] at failed
      cases failed
      exact each error outcome

/-- The second step has to be looked at only for the values that the first runs to. -/
theorem bind_of_runs {next : α → Build β} (first : FailsOnly step allowed)
    (second : ∀ {work value between}, Runs step work value between →
      FailsOnly (next value) allowed) : FailsOnly (step >>= next) allowed := by
  intro work failure after failed
  change EStateM.bind step next work = _ at failed
  unfold EStateM.bind at failed
  cases came : step work with
  | ok value between =>
      rw [came] at failed
      exact second came failed
  | error failure between =>
      rw [came] at failed
      cases failed
      exact first came

theorem bind {next : α → Build β} (first : FailsOnly step allowed)
    (second : ∀ value, FailsOnly (next value) allowed) : FailsOnly (step >>= next) allowed :=
  first.bind_of_runs fun _ => second _

theorem mapM {items : List α} {body : α → Build β}
    (round : ∀ item ∈ items, FailsOnly (body item) allowed) :
    FailsOnly (items.mapM body) allowed := by
  induction items with
  | nil => exact pure []
  | cons item rest ih =>
      rw [List.forall_mem_cons] at round
      rw [List.mapM_cons]
      exact round.1.bind fun _ => (ih round.2).bind fun _ => pure _

end FailsOnly

end Build

end ServiceDoc
