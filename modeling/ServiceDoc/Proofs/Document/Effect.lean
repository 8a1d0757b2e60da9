import ServiceDoc.Document.Assemble
import ServiceDoc.Proofs.Build.Gives
import ServiceDoc.Proofs.Document.Component
import ServiceDoc.Proofs.OpenApi.Fields

/-!
# Steps that do the same everywhere

Adding operations puts them in place, adds tags and notes names, and which operations, tags and
names these are does not depend on what other files brought before. So a step is described by its
effect, which is that of every run, and the effect of steps after each other is put together from
theirs.
-/

namespace ServiceDoc

open Build Workspace

namespace Element

/-- The operation of a document under a path and a verb. -/
def slot? (document : Element) (path : Scalar) (verb : String) : Option Element :=
  ((document.table "paths").get? path).bind (·.one? verb)

/-- No two paths of a document are one, and only operations have servers. -/
structure Unserved (document : Element) : Prop where
  distinct : (document.table "paths").keys.Nodup
  root : document.many "servers" = []
  paths : ∀ entry ∈ document.table "paths", entry.2.many "servers" = []

variable {document : Element}

theorem slot?_set_of_ne {key : String} (content : Content) (differ : "paths" ≠ key) (path : Scalar)
    (verb : String) : (document.set key content).slot? path verb = document.slot? path verb := by
  unfold slot?
  rw [table_set_of_ne _ _ differ]

theorem Unserved.set (unserved : document.Unserved) {key : String} (content : Content)
    (paths : "paths" ≠ key) (servers : "servers" ≠ key) : (document.set key content).Unserved where
  distinct := by
    rw [table_set_of_ne _ _ paths]
    exact unserved.distinct
  root := by
    rw [many_set_of_ne _ _ servers]
    exact unserved.root
  paths := by
    rw [table_set_of_ne _ _ paths]
    exact unserved.paths

end Element

theorem Config.unserved_initialDocument {config : Config} :
    (initialDocument config none).Unserved :=
  ⟨List.nodup_nil, rfl, fun _ member => (List.not_mem_nil member).elim⟩

/-- What a step does to the paths and tags of a document, and to the names that are noted. -/
structure Effect where
  /-- The operations that are put in place, whatever was there. -/
  slots : Scalar → String → Option Element := fun _ _ => none
  tags : List Element := []
  /-- The names that are noted. -/
  names : List String := []

namespace Effect

variable {work between after : Workspace} {first second : Effect}

/-- One effect after another. -/
def andThen (first second : Effect) : Effect where
  slots path verb := (second.slots path verb).or (first.slots path verb)
  tags := first.tags ++ second.tags
  names := first.names ++ second.names

/-- The second workspace is the first after an effect, but for component schemas and notices. -/
structure Acts (effect : Effect) (work after : Workspace) : Prop where
  slots : ∀ path verb, after.document.slot? path verb =
    (effect.slots path verb).or (work.document.slot? path verb)
  tags : after.document.many "tags" = work.document.many "tags" ++ effect.tags
  names : after.required = requireAll work.required effect.names
  info : after.document.get? "info" = work.document.get? "info"
  /-- Only operations have servers, if this was so. -/
  unserved : work.document.Unserved → after.document.Unserved

theorem Acts.trans (begun : first.Acts work between) (ended : second.Acts between after) :
    (first.andThen second).Acts work after where
  slots path verb := by
    rw [ended.slots, begun.slots, andThen, Option.or_assoc]
  tags := by
    rw [ended.tags, begun.tags, andThen, List.append_assoc]
  names := by
    rw [ended.names, begun.names, andThen, requireAll_append]
  info := ended.info.trans begun.info
  unserved start := ended.unserved (begun.unserved start)

/-- Noting names has no other effect. -/
theorem acts_of_refers {names : List String} (refers : Refers names work after) :
    ({ names } : Effect).Acts work after where
  slots path verb := by rw [refers.document, Option.none_or]
  tags := by rw [refers.document, List.append_nil]
  names := refers.required
  info := by rw [refers.document]
  unserved start := refers.document ▸ start

/-- A component schema is none of the things that an effect is about. -/
theorem acts_finish (name : String) (schema : Element) :
    ({} : Effect).Acts work (work.finish name schema) := by
  by_cases done : name ∈ work.finished
  · rw [finish_of_mem done]
    exact acts_of_refers (.refl work)
  · rw [finish_of_notMem done]
    refine ⟨fun path verb => ?_, ?_, rfl, ?_, fun start => start.set _ (by decide) (by decide)⟩
    · rw [Option.none_or]
      exact Element.slot?_set_of_ne _ (by decide) path verb
    · rw [List.append_nil]
      exact Element.many_set_of_ne _ _ (by decide)
    · exact Element.get?_set_of_ne _ _ (by decide)

end Effect

namespace Build

variable {α β : Type} {step : Build α}

/-- What a step comes to and what it does is the same from every workspace. -/
structure Fixed (step : Build α) : Prop where
  steady : Steady step
  effect : ∃ effect : Effect, ∀ {work value after}, Runs step work value after →
    effect.Acts work after

namespace Fixed

/-- A step that notes the same names from everywhere. -/
theorem ofRefers {names : List String} (steady : Steady step)
    (refers : ∀ {work value after}, Runs step work value after → Refers names work after) :
    Fixed step :=
  ⟨steady, { names }, fun runs => Effect.acts_of_refers (refers runs)⟩

theorem pure (value : α) : Fixed (pure value) :=
  .ofRefers (steady_pure value) fun runs => by
    obtain ⟨-, rfl⟩ := runs_pure.mp runs
    exact .refl _

theorem fail (failure : Failure) : Fixed (fail failure : Build α) :=
  ⟨steady_fail failure, {}, fun runs => (runs_fail.mp runs).elim⟩

theorem report (notice : Notice) : Fixed (report notice) :=
  .ofRefers (steady_report notice) fun runs => by
    obtain rfl := runs_report.mp runs
    exact .notices _ _

theorem comment (outcome : Except CommentError α) : Fixed (comment outcome) :=
  .ofRefers (steady_comment outcome) fun runs => by
    obtain ⟨-, rfl⟩ := runs_comment.mp runs
    exact .refl _

theorem annotated (place : String) (loaded : Loading α) : Fixed (annotated place loaded) :=
  .ofRefers (steady_annotated place loaded) fun runs => by
    obtain ⟨-, rfl⟩ := runs_annotated.mp runs
    exact .notices _ _

/-- The effect of two steps is that of the first and then that of the second, with the value that
the first comes to from everywhere. -/
theorem bind {next : α → Build β} (first : Fixed step) (second : ∀ value, Fixed (next value)) :
    Fixed (step >>= next) := by
  refine ⟨first.steady.bind fun value => (second value).steady, ?_⟩
  obtain ⟨begun, acts⟩ := first.effect
  by_cases comes : ∃ work value after, Runs step work value after
  · obtain ⟨work, value, after, run⟩ := comes
    obtain ⟨ended, acts_later⟩ := (second value).effect
    refine ⟨begun.andThen ended, fun runs => ?_⟩
    obtain ⟨other, between, before, later⟩ := runs_bind.mp runs
    obtain rfl := (first.steady run).unique (first.steady before)
    exact (acts before).trans (acts_later later)
  · refine ⟨{}, fun runs => ?_⟩
    obtain ⟨value, between, before, -⟩ := runs_bind.mp runs
    exact (comes ⟨_, value, between, before⟩).elim

/-- Adding a component schema has no effect on the rest, and what follows does not depend on whether
it was added. -/
theorem addSchema_bind {next : Build β} (name : String) (schema : Element) (second : Fixed next) :
    Fixed (addSchema name schema >>= fun _ => next) := by
  refine ⟨.after (exists_runs_addSchema name schema) second.steady, ?_⟩
  obtain ⟨ended, acts⟩ := second.effect
  refine ⟨Effect.andThen {} ended, fun runs => ?_⟩
  obtain ⟨added, between, before, later⟩ := runs_bind.mp runs
  obtain rfl := finish_of_runs before
  exact (Effect.acts_finish name schema).trans (acts later)

theorem mapM {items : List α} {body : α → Build β} (round : ∀ item ∈ items, Fixed (body item)) :
    Fixed (items.mapM body) := by
  induction items with
  | nil => exact .pure []
  | cons item rest ih =>
      rw [List.forall_mem_cons] at round
      rw [List.mapM_cons]
      exact round.1.bind fun _ => (ih round.2).bind fun _ => .pure _

theorem forM {items : List α} {body : α → Build Unit}
    (round : ∀ item ∈ items, Fixed (body item)) : Fixed (items.forM body) := by
  induction items with
  | nil => exact .pure ()
  | cons item rest ih =>
      rw [List.forall_mem_cons] at round
      exact round.1.bind fun _ => ih round.2

end Fixed

end Build

end ServiceDoc
