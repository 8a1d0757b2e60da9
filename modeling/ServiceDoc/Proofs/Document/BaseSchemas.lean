import ServiceDoc.Proofs.Document.Modes
import ServiceDoc.Proofs.OpenApi.Document
import ServiceDoc.Proofs.OpenApi.Overlay

/-!
# The component schemas of a base document

A build does not look at the component schemas that its base document brings: it makes the schemas
that it would make without them, and puts them over those of the base. So a schema of the base stays
exactly where the build makes none of its name.
-/

namespace ServiceDoc

open Build Workspace

namespace Workspace

/-- A workspace is another one over component schemas that were there before. -/
structure Overlies (under : Entries Element) (plain work : Workspace) : Prop where
  required : work.required = plain.required
  finished : work.finished = plain.finished
  distinct : work.schemas.keys.Nodup
  schemas : ∀ key, work.schemas.get? key = (plain.schemas.get? key).or (under.get? key)

variable {under : Entries Element} {plain work after other : Workspace}

/-- Steps that leave component schemas alone keep what they lie over. -/
theorem Overlies.of_same (overlies : Overlies under plain work)
    (required : after.required = other.required)
    (finished : after.finished = work.finished) (other_finished : other.finished = plain.finished)
    (schemas : after.schemas = work.schemas) (other_schemas : other.schemas = plain.schemas) :
    Overlies under other after where
  required := required
  finished := by rw [finished, other_finished, overlies.finished]
  distinct := schemas ▸ overlies.distinct
  schemas key := by rw [schemas, other_schemas, overlies.schemas]

theorem Overlies.finish (overlies : Overlies under plain work) (name : String) (schema : Element) :
    Overlies under (plain.finish name schema) (work.finish name schema) := by
  by_cases done : name ∈ plain.finished
  · rw [finish_of_mem done, finish_of_mem (overlies.finished ▸ done)]
    exact overlies
  · have fresh : name ∉ work.finished := overlies.finished ▸ done
    refine ⟨?_, ?_, ?_, fun key => ?_⟩
    · rw [required_finish, required_finish, overlies.required]
    · rw [finish_of_notMem done, finish_of_notMem fresh]
      exact congrArg (List.cons name) overlies.finished
    · rw [schemas_finish fresh]
      exact Entries.nodup_keys_put overlies.distinct
    · rw [schemas_finish fresh, schemas_finish done, Entries.get?_put, Entries.get?_put]
      split
      · rfl
      · exact overlies.schemas key

theorem Overlies.finishDefaults (overlies : Overlies under plain work) (config : Config) :
    Overlies under (config.finishDefaults plain) (config.finishDefaults work) := by
  unfold Config.finishDefaults
  split
  · exact (overlies.finish _ _).finish _ _
  · exact overlies

end Workspace

namespace Build

variable {α β : Type} {under : Entries Element} {step : Build α}

/-- A step does the same without the component schemas that were there before. -/
def Ignores (under : Entries Element) (step : Build α) : Prop :=
  ∀ ⦃plain work value after⦄, Overlies under plain work → Runs step work value after →
    ∃ other, Runs step plain value other ∧ Overlies under other after

namespace Ignores

/-- A step that has the same effect everywhere and leaves component schemas alone. -/
theorem ofFixed (fixed : Fixed step) (leaves : ∀ {work value after}, Runs step work value after →
    after.finished = work.finished ∧ after.schemas = work.schemas) : Ignores under step := by
  intro plain work value after overlies runs
  obtain ⟨other, again⟩ := fixed.steady runs plain
  obtain ⟨effect, acts⟩ := fixed.effect
  have noted : after.required = other.required := by
    rw [(acts runs).names, (acts again).names, overlies.required]
  exact ⟨other, again,
    overlies.of_same noted (leaves runs).1 (leaves again).1 (leaves runs).2 (leaves again).2⟩

/-- A step that refers to the same names everywhere. -/
theorem ofRefers {names : List String} (steady : Steady step)
    (refers : ∀ {work value after}, Runs step work value after → Refers names work after) :
    Ignores under step :=
  .ofFixed (.ofRefers steady refers) fun runs =>
    ⟨(refers runs).finished, congrArg Element.componentSchemas (refers runs).document⟩

theorem pure (value : α) : Ignores under (pure value) := by
  intro plain work result after overlies runs
  obtain ⟨rfl, rfl⟩ := runs_pure.mp runs
  exact ⟨plain, runs_pure.mpr ⟨rfl, rfl⟩, overlies⟩

theorem report (notice : Notice) : Ignores under (report notice) := by
  apply Ignores.ofRefers (steady_report notice)
  intro work value after runs
  obtain rfl := runs_report.mp runs
  exact .notices _ _

theorem comment (outcome : Except CommentError α) : Ignores under (comment outcome) := by
  apply Ignores.ofRefers (steady_comment outcome)
  intro work value after runs
  obtain ⟨-, rfl⟩ := runs_comment.mp runs
  exact .refl _

theorem bind {next : α → Build β} (first : Ignores under step)
    (second : ∀ value, Ignores under (next value)) : Ignores under (step >>= next) := by
  intro plain work result after overlies runs
  obtain ⟨value, between, begun, ended⟩ := runs_bind.mp runs
  obtain ⟨halfway, begun_again, over_halfway⟩ := first overlies begun
  obtain ⟨other, ended_again, over_after⟩ := second value over_halfway ended
  exact ⟨other, runs_bind.mpr ⟨value, halfway, begun_again, ended_again⟩, over_after⟩

theorem addSchema (name : String) (schema : Element) : Ignores under (addSchema name schema) := by
  intro plain work added after overlies runs
  have said := runs_addSchema.mp runs
  obtain ⟨told, other, again⟩ := exists_runs_addSchema name schema plain
  have same : told = added := by
    have told_again := runs_addSchema.mp again
    rw [overlies.finished] at said
    split at said
    next done =>
      rw [if_pos done] at told_again
      exact told_again.1.trans said.1.symm
    next fresh =>
      rw [if_neg fresh] at told_again
      exact told_again.1.trans said.1.symm
  subst same
  refine ⟨other, again, ?_⟩
  rw [finish_of_runs runs, finish_of_runs again]
  exact overlies.finish name schema

theorem discard {next : Build α} (ignores : Ignores under next) :
    Ignores under (discard next : Build Unit) := by
  intro plain work done after overlies runs
  obtain ⟨value, runs⟩ := runs_discard.mp runs
  obtain ⟨other, again, over_after⟩ := ignores overlies runs
  exact ⟨other, runs_discard.mpr ⟨value, again⟩, over_after⟩

theorem ite {holds : Prop} [Decidable holds] {other : Build α} (first : Ignores under step)
    (second : Ignores under other) : Ignores under (if holds then step else other) := by
  split
  · exact first
  · exact second

/-- A step that reads no more of the workspace than what is noted and done. -/
theorem get_bind {next : Workspace → Build β}
    (alike : ∀ plain work, Overlies under plain work → next work = next plain)
    (ignores : ∀ work, Ignores under (next work)) : Ignores under (get >>= next) := by
  intro plain work value after overlies runs
  obtain ⟨_, _, read, rest⟩ := runs_bind.mp runs
  obtain ⟨rfl, rfl⟩ := runs_get.mp read
  rw [alike plain _ overlies] at rest
  obtain ⟨other, again, over_after⟩ := ignores plain overlies rest
  exact ⟨other, runs_bind.mpr ⟨plain, plain, runs_get.mpr ⟨rfl, rfl⟩, again⟩, over_after⟩

theorem mapM {items : List α} {body : α → Build β}
    (round : ∀ item ∈ items, Ignores under (body item)) : Ignores under (items.mapM body) := by
  induction items with
  | nil => exact .pure []
  | cons item rest ih =>
      rw [List.forall_mem_cons] at round
      rw [List.mapM_cons]
      exact round.1.bind fun _ => (ih round.2).bind fun _ => .pure _

theorem forM {items : List α} {body : α → Build Unit}
    (round : ∀ item ∈ items, Ignores under (body item)) : Ignores under (items.forM body) := by
  induction items with
  | nil => exact .pure ()
  | cons item rest ih =>
      rw [List.forall_mem_cons] at round
      exact round.1.bind fun _ => ih round.2

end Ignores

end Build

namespace Config

variable {config : Config} {registry : Registry} {under : Entries Element}

/-! ## Adding operations -/

theorem boundOperation_ignores {binding : Binding} {shared : Option Element} {input : Message}
    (found : registry.message? binding.method.definition.input = some input) :
    Ignores under (config.boundOperation registry binding shared input) := by
  intro plain work value after overlies runs
  obtain ⟨operation, path⟩ := value
  have fixed := config.boundOperation_fixed registry binding shared input
  obtain ⟨other, again⟩ := fixed.steady runs plain
  obtain ⟨effect, acts⟩ := fixed.effect
  have known : ∃ entry ∈ registry.messages, entry.2 = input :=
    ⟨_, Registry.mem_of_message? found, rfl⟩
  have mentions := (boundOperation_runs known runs).1
  have mentions_again := (boundOperation_runs known again).1
  refine ⟨other, again, (overlies.finishDefaults config).of_same ?_ mentions.finished
    mentions_again.finished mentions.schemas mentions_again.schemas⟩
  rw [(acts runs).names, (acts again).names, overlies.required]

theorem addBinding_ignores (shared : Option Element) (binding : Binding) :
    Ignores under (config.addBinding registry shared binding) := by
  unfold addBinding
  split
  · exact (Ignores.report _).bind fun _ => .pure _
  split
  · exact (Ignores.report _).bind fun _ => .pure _
  next input found =>
    refine (boundOperation_ignores found).bind fun made => ?_
    refine Ignores.bind (.ofFixed (addOperation_fixed _ _ _) fun runs => ?_) fun _ => .pure _
    have edits := (addOperation_runs runs).1
    exact ⟨edits.finished, edits.schemas⟩

theorem addService_ignores (way : List Nat) (service : Service) :
    Ignores under (config.addService registry way service) := by
  unfold addService
  refine Ignores.bind (.ofRefers (sharedData_fixed way service).steady fun runs =>
    (sharedData_runs runs).1) fun shared => ?_
  refine (Ignores.mapM fun binding _ => addBinding_ignores shared binding).bind fun added => ?_
  split
  · refine (Ignores.comment _).bind fun description => .ofFixed (addTag_fixed _) fun runs => ?_
    obtain rfl := runs_modifyDocument.mp runs
    exact ⟨rfl, Element.componentSchemas_set_of_ne _ _ (by decide)⟩
  · exact .pure _

theorem addFile_ignores {file : SourceFile} (plain : Unannotated (file.payload? .document)) :
    Ignores under (config.addFile registry file) := by
  have overlay : Ignores under (overlayFile file) := by
    intro other work done after overlies runs
    obtain rfl := (overlayFile_runs runs).2.2 plain
    refine ⟨other, ?_, overlies⟩
    unfold overlayFile at runs ⊢
    cases read : file.payload? .document with
    | error error => simp [read] at runs
    | ok entries =>
        cases entries with
        | none => exact runs_pure.mpr ⟨rfl, rfl⟩
        | some entries => exact (plain entries read).elim
  rw [addFile_eq]
  refine overlay.bind fun _ => .forM fun item _ => ?_
  split
  · exact addService_ignores _ _
  · exact .report _

/-! ## Making component schemas -/

theorem addMessageSchema_ignores (message : Message) :
    Ignores under (config.addMessageSchema registry message) := by
  unfold addMessageSchema
  apply Ignores.get_bind
  · intro plain work overlies
    unfold isPending
    rw [overlies.required, overlies.finished]
  intro work
  refine .ite (.ite ?value (.ite ?any (.ite ?status ?ordinary))) (.pure ())
  case value => exact (Ignores.addSchema _ _).discard
  case any => exact (Ignores.addSchema _ _).discard
  case status =>
    exact (Ignores.addSchema _ _).discard.bind fun _ => (Ignores.addSchema _ _).discard
  case ordinary =>
    have made : Ignores under (config.messageSchema registry message) :=
      .ofRefers (messageSchema_steady message) fun runs => (messageSchema_runs runs).1
    exact made.bind fun schema => (Ignores.addSchema _ schema).discard

theorem resolveLoop_ignores (fuel : Nat) : Ignores under (config.resolveLoop registry fuel) := by
  induction fuel with
  | zero => exact .pure ()
  | succ fuel ih =>
      unfold resolveLoop
      apply Ignores.get_bind
      · intro plain work overlies
        rw [overlies.required]
      intro start
      have pass : Ignores under (config.resolvePass registry) :=
        .forM fun file _ => .forM fun message _ => addMessageSchema_ignores message
      refine pass.bind fun _ => ?_
      apply Ignores.get_bind
      · intro plain work overlies
        rw [overlies.required]
      intro ended
      exact .ite ih (.pure ())

end Config

/-! ## A base document -/

/-- An element is another one with what is marked in it marked anew. -/
def Element.IsCopyOf (copy original : Element) : Prop := ∃ stamp, copy = original.stamped stamp

/-- Schemas are copies of others, key by key. -/
def Entries.Copies (copies originals : Entries Element) : Prop :=
  List.Forall₂ (fun copy original => copy.1 = original.1 ∧ copy.2.IsCopyOf original.2) copies
    originals

theorem Entries.Copies.keys_eq {copies originals : Entries Element}
    (same : Copies copies originals) : keys copies = keys originals :=
  keys_eq_of_forall₂ same

/-- An element that is merged into nothing is copied. -/
theorem Entries.copies_mergeTable {entries : Entries Element} (distinct : entries.keys.Nodup)
    (way : List Nat) : Copies (mergeTable way 0 [] entries) entries := by
  suffices added : ∀ (position : Nat) (current : Entries Element),
      (∀ key ∈ entries.keys, key ∉ current.keys) → ∃ copies,
        mergeTable way position current entries = current ++ copies ∧ Copies copies entries by
    obtain ⟨copies, merged, same⟩ := added 0 [] fun _ _ => List.not_mem_nil
    exact merged ▸ same
  induction entries with
  | nil => exact fun _ current _ => ⟨[], (List.append_nil current).symm, .nil⟩
  | cons entry rest ih =>
      obtain ⟨key, element⟩ := entry
      obtain ⟨unlike, later⟩ := List.nodup_cons.mp distinct
      intro position current new
      have fresh := new key (.head _)
      rw [mergeTable_cons, get?_eq_none_iff.mpr fresh, Element.laidOver, put_of_notMem fresh]
      generalize copied : element.stamped (stampOf (way ++ [position])) = copy
      have still_new : ∀ other ∈ keys rest, other ∉ keys (current ++ [(key, copy)]) := by
        intro other member inside
        rw [keys_append, List.mem_append] at inside
        apply inside.elim (new other (.tail _ member))
        intro added
        exact unlike (List.mem_singleton.mp added ▸ member)
      obtain ⟨copies, merged, same⟩ := ih later (position + 1) _ still_new
      refine ⟨(key, copy) :: copies, ?_, .cons ⟨rfl, _, copied.symm⟩ same⟩
      rw [merged, List.append_assoc]
      rfl

namespace Element

/-- A base document holds components in which every schema has a name of its own. -/
structure IsBase (base : Element) : Prop extends base.IsDocument where
  regular_components : ∀ components ∈ base.one? "components", components.IsRegular
  distinct : base.componentSchemas.keys.Nodup

variable {element base : Element}

theorem one?_of_get? {key : String} {inner : Element}
    (holds : element.get? key = some (.one inner)) : element.one? key = some inner := by
  rw [one?, holds]

/-- A document starts with copies of the component schemas of its base. -/
theorem IsBase.copies (is_base : base.IsBase) (config : Config) :
    Entries.Copies (initialDocument config (some base)).componentSchemas base.componentSchemas := by
  obtain ⟨components, holds, kind⟩ := is_base.components
  have regular := is_base.regular_components components (one?_of_get? holds)
  have named := is_base.distinct
  obtain ⟨way, merged⟩ := get?_mergeAt (initialDocument config none) [1] is_base.regular holds
  rw [show (initialDocument config none).get? "components" = some (.one (.empty .components)) from
    rfl, mergeContent, if_pos (show (empty .components).kind = components.kind from kind.symm)]
    at merged
  have laid : (initialDocument config (some base)).one? "components" =
      some ((empty .components).mergeAt way components) := one?_of_get? merged
  unfold componentSchemas at named ⊢
  rw [laid, Option.getD_some]
  rw [one?_of_get? holds, Option.getD_some] at named ⊢
  unfold table at named ⊢
  cases found : components.get? "schemas" with
  | none =>
      have unset : ((empty .components).mergeAt way components).get? "schemas" = none := by
        rw [get?, fields_mergeAt, lookup_mergeFields_of_notMem]
        · rfl
        · intro member
          obtain ⟨field, inside, same⟩ := List.mem_map.mp member
          have unlike := List.lookup_eq_none_iff.mp found field inside
          simp [same] at unlike
      rw [unset]
      exact .nil
  | some content =>
      obtain ⟨inside, copied⟩ := get?_mergeAt (empty .components) way regular found
      rw [copied]
      rw [found] at named
      cases content with
      | table entries => exact Entries.copies_mergeTable named inside
      | _ => exact .nil

end Element

/-! ## Building over a base document -/

namespace Config

variable {config : Config} {registry : Registry} {base document : Element}

/-- A build starts over the copies of what its base brings. -/
theorem overlies_initialDocument (is_base : base.IsBase) :
    Overlies (initialDocument config (some base)).componentSchemas
      { document := initialDocument config none }
      { document := initialDocument config (some base) } where
  required := rfl
  finished := rfl
  distinct := by
    change (Entries.keys (initialDocument config (some base)).componentSchemas).Nodup
    rw [(is_base.copies config).keys_eq]
    exact is_base.distinct
  schemas _ := rfl

theorem get?_componentSchemas_over {files : List SourceFile} (is_base : base.IsBase)
    (plain : ∀ file ∈ files, Unannotated (file.payload? .document))
    (built : (config.buildDocument registry files (some base)).outcome = .ok document) :
    ∃ operated resolved,
      (files.forM (config.addFile registry)).Runs { document := initialDocument config none } ()
        operated ∧
      (config.resolveSchemas registry).Runs operated () resolved ∧
      ∀ key, document.componentSchemas.get? key = (resolved.schemas.get? key).or
        ((initialDocument config (some base)).componentSchemas.get? key) := by
  obtain ⟨operated, resolved, operations, resolves, settles⟩ := buildDocument_iff.mp built
  have adds : Ignores (initialDocument config (some base)).componentSchemas
      (files.forM (config.addFile registry)) := .forM fun file member =>
    addFile_ignores (plain file member)
  obtain ⟨operated_plain, operations_plain, over_operated⟩ :=
    adds (overlies_initialDocument is_base) operations
  obtain ⟨resolved_plain, resolves_plain, overlies⟩ := resolveLoop_ignores _ over_operated resolves
  refine ⟨operated_plain, resolved_plain, operations_plain, resolves_plain, ?_⟩
  intro key
  rw [Entries.get?_of_perm settles.componentSchemas_perm overlies.distinct]
  exact overlies.schemas key

/-- The component schemas of a document that is built over a base are those that the operations and
messages make without it and, under all other names, copies of what the base brings. -/
theorem schemas_over_base {files : List SourceFile} (is_base : base.IsBase)
    (plain : ∀ file ∈ files, Unannotated (file.payload? .document))
    (built : (config.buildDocument registry files (some base)).outcome = .ok document) :
    ∃ operated resolved copies,
      (files.forM (config.addFile registry)).Runs { document := initialDocument config none } ()
        operated ∧
      (config.resolveSchemas registry).Runs operated () resolved ∧
      Entries.Copies copies base.componentSchemas ∧
      ∀ key, document.componentSchemas.get? key =
        (resolved.schemas.get? key).or (copies.get? key) := by
  obtain ⟨operated, resolved, operations, resolves, overlies⟩ :=
    get?_componentSchemas_over is_base plain built
  exact ⟨operated, resolved, _, operations, resolves, is_base.copies config, overlies⟩

/-- A base document that describes books and the cards of a catalog. -/
def catalogBase : Element := .mk .document [
  ("openapi", .value (.string "3.0.3")),
  ("info", .one (.mk .info [("title", .value (.string "Catalog"))] [])),
  ("components", .one (.mk .components [("schemas", .table [
    (.string "Book",
      .mk .schema [("description", .value (.string "A book as the catalog has it."))] []),
    (.string "Card", .mk .schema [("type", .value (.string "string"))] [])])] []))] []

theorem isBase_catalogBase : catalogBase.IsBase where
  kind := rfl
  regular := ⟨by decide, List.nodup_nil, fun _ member => (List.not_mem_nil member).elim⟩
  info := ⟨_, rfl, rfl⟩
  components := ⟨_, rfl, rfl⟩
  regular_components := by
    rintro components ⟨⟩
    exact ⟨by decide, List.nodup_nil, fun _ member => (List.not_mem_nil member).elim⟩
  distinct := by decide

theorem unannotated_library :
    ∀ file ∈ libraryRegistry.files, Unannotated (file.payload? .document) := by
  decide +kernel

theorem exists_library_over_catalog : ∃ document,
    (libraryConfig.buildDocument libraryRegistry libraryRegistry.files (some catalogBase)).outcome =
      .ok document := by
  have ends : (libraryConfig.buildDocument libraryRegistry libraryRegistry.files
      (some catalogBase)).outcome.isOk = true := by decide +kernel
  cases built : (libraryConfig.buildDocument libraryRegistry libraryRegistry.files
      (some catalogBase)).outcome with
  | error failure =>
      rw [built] at ends
      exact absurd ends Bool.false_ne_true
  | ok document => exact ⟨document, rfl⟩

/-- What the library makes lies over the catalog. -/
theorem library_over_catalog : ∃ document operated resolved copies,
    (libraryConfig.buildDocument libraryRegistry libraryRegistry.files (some catalogBase)).outcome =
      .ok document ∧
    (libraryRegistry.files.forM (libraryConfig.addFile libraryRegistry)).Runs
      { document := initialDocument libraryConfig none } () operated ∧
    (libraryConfig.resolveSchemas libraryRegistry).Runs operated () resolved ∧
    Entries.Copies copies catalogBase.componentSchemas ∧
    ∀ key, document.componentSchemas.get? key =
      (resolved.schemas.get? key).or (copies.get? key) := by
  obtain ⟨document, built⟩ := exists_library_over_catalog
  obtain ⟨operated, resolved, copies, overlies⟩ :=
    schemas_over_base isBase_catalogBase unannotated_library built
  exact ⟨document, operated, resolved, copies, built, overlies⟩

/-- What the catalog says about a book is lost when the library refers to its own books. -/
theorem catalog_loses_book : ∃ document schema made,
    (libraryConfig.buildDocument libraryRegistry libraryRegistry.files (some catalogBase)).outcome =
      .ok document ∧
    (∀ file ∈ libraryRegistry.files, Unannotated (file.payload? .document)) ∧
    catalogBase.componentSchemas.get? (.string "Book") = some schema ∧
    document.componentSchemas.get? (.string "Book") = some made ∧ ¬made.IsCopyOf schema := by
  have described : ((libraryConfig.unsettledOf libraryRegistry
      libraryRegistry.files).componentSchemas.get? (.string "Book")).map
        (fun made => (made.get? "properties").isSome) = some true := by decide +kernel
  obtain ⟨document, built⟩ := exists_library_over_catalog
  obtain ⟨operated, resolved, operations, resolves, overlies⟩ :=
    get?_componentSchemas_over isBase_catalogBase unannotated_library built
  rw [unsettledOf_eq operations resolves] at described
  obtain ⟨made, stands, has_properties⟩ := Option.map_eq_some_iff.mp described
  refine ⟨document, _, made, built, unannotated_library, rfl, ?_, ?_⟩
  · rw [overlies, schemas, stands]
    rfl
  · rintro ⟨stamp, rfl⟩
    exact absurd has_properties Bool.false_ne_true

end Config

end ServiceDoc
