import ServiceDoc.Proofs.Document.Effect
import ServiceDoc.Proofs.Document.Operations

/-!
# Operations do not depend on the workspace

Which operation a binding comes to, under which path, and what it notes is the same from every
workspace, though component schemas are added on the way. So the effect of adding a file is that
file's alone.
-/

namespace ServiceDoc

open Build

namespace Config

variable (config : Config) (registry : Registry)

theorem schemaOfMessage_fixed (message : Message) : Fixed (config.schemaOfMessage message) :=
  .ofRefers (schemaOfMessage_steady message) fun runs => (schemaOfMessage_runs runs).refers

theorem schemaOfField_fixed (field : MessageField) : Fixed (config.schemaOfField registry field) :=
  .ofRefers (schemaOfField_steady field) fun runs => (schemaOfField_runs runs).refers

/-! ## Parameters -/

theorem leafParameter_fixed (field : MessageField) : Fixed (config.leafParameter registry field) :=
  (Fixed.comment _).bind fun _ => (config.schemaOfField_fixed registry field).bind fun _ => .pure _

theorem expandField_fixed (fuel : Nat) (depths : Depths) (field : MessageField) :
    Fixed (config.expandField registry fuel depths field) := by
  have leaf (field : MessageField) :=
    (config.leafParameter_fixed registry field).bind fun parameter => .pure [parameter]
  have skipped (notice : Notice) : Fixed (do report notice; return [] : Build (List Parameter)) :=
    (Fixed.report notice).bind fun _ => .pure _
  induction fuel generalizing depths field with
  | zero => exact .pure _
  | succ fuel ih =>
      unfold expandField
      split
      · exact .pure _
      split
      · exact leaf field
      split
      · exact skipped _
      split
      · exact skipped _
      split
      · exact leaf field
      refine (Fixed.comment _).bind fun description => (Fixed.mapM fun inner _ => ?_).bind
        fun _ => .pure _
      split
      · exact .pure _
      · exact (ih _ _).bind fun _ => .pure _

theorem queryParameters_fixed (depths : Depths) (field : MessageField) :
    Fixed (config.queryParameters registry depths field) :=
  config.expandField_fixed registry _ depths field

theorem queryOf_fixed (body : String) (covered : List String) (input : Option Message) :
    Fixed (config.queryOf registry body covered input) := by
  unfold queryOf
  split
  · exact .pure _
  cases input with
  | none => exact .fail _
  | some message =>
      dsimp only
      split
      · exact .pure _
      · exact (Fixed.mapM fun field _ => config.queryParameters_fixed registry [] field).bind
          fun _ => .pure _

theorem placeholderParameter_fixed (input : Option Message) (name : List Char) :
    Fixed (config.placeholderParameter registry input name) := by
  unfold placeholderParameter
  split
  · exact (config.schemaOfField_fixed registry _).bind fun _ => (Fixed.comment _).bind
      fun _ => .pure _
  · exact .pure _

theorem expandPath_fixed (path : String) (input : Option Message) :
    Fixed (config.expandPath registry path input) :=
  (Fixed.mapM fun name _ => config.placeholderParameter_fixed registry input name).bind
    fun _ => .pure _

/-! ## Bodies and responses -/

theorem bodySchema_fixed (body : String) (message : Message) :
    Fixed (config.bodySchema registry body message) := by
  have skipped (notice : Notice) : Fixed (do report notice; return none : Build (Option Element)) :=
    (Fixed.report notice).bind fun _ => .pure _
  unfold bodySchema
  split
  · exact config.schemaOfMessage_fixed _
  split
  · exact skipped _
  split
  · exact .pure _
  split
  · exact config.schemaOfMessage_fixed _
  · exact skipped _

theorem requestBody_fixed (body : String) (input : Option Message) :
    Fixed (config.requestBody registry body input) := by
  unfold requestBody
  split
  · exact .pure _
  cases input with
  | none => exact .fail _
  | some message => exact (config.bodySchema_fixed registry body message).bind fun _ => .pure _

theorem responseContent_fixed (message : Message) : Fixed (config.responseContent message) := by
  unfold responseContent
  split
  · exact .pure _
  split
  · exact .pure _
  · exact (config.schemaOfMessage_fixed _).bind fun _ => .pure _

theorem responses_fixed (output : Option Message) : Fixed (config.responses output) := by
  have answered (entries : Entries Element) : Fixed (if config.defaultResponse then do
        let anyName := config.schemaName anyIdentity
        let _ ← addSchema anyName WellKnown.anySchema
        let statusName := config.schemaName statusIdentity
        let _ ← addSchema statusName (WellKnown.statusSchema anyName)
        let failure := response "Default error response"
          (WellKnown.jsonContent (some (Schema.reference statusName)))
        return Entries.put entries (.string "default") failure
      else return entries : Build (Entries Element)) := by
    split
    · exact .addSchema_bind _ _ (.addSchema_bind _ _ (.pure _))
    · exact .pure _
  unfold responses
  cases output with
  | none => exact (Fixed.report _).bind fun _ => (Fixed.pure _).bind fun _ => answered _
  | some message =>
      exact (config.responseContent_fixed message).bind fun _ =>
        (Fixed.pure _).bind fun _ => answered _

theorem servers_fixed (host : String) : Fixed (servers host) := by
  unfold servers
  split
  · exact .pure _
  split
  · exact .fail _
  · exact .pure _
  · exact .pure _

theorem assemble_fixed (heading : Heading) (rule : Rule) (input output : Option Message) :
    Fixed (config.assemble registry heading rule input output) :=
  (config.expandPath_fixed registry _ input).bind fun _ =>
    (config.queryOf_fixed registry _ _ input).bind fun _ =>
      (config.responses_fixed output).bind fun _ => (servers_fixed _).bind fun _ =>
        (config.requestBody_fixed registry _ input).bind fun _ => .pure _

/-! ## Files -/

theorem boundOperation_fixed (binding : Binding) (shared : Option Element) (input : Message) :
    Fixed (config.boundOperation registry binding shared input) := by
  unfold boundOperation
  refine (Fixed.comment _).bind fun description => (config.assemble_fixed registry _ _ _ _).bind
    fun made => (Fixed.comment _).bind fun entries => ?_
  cases entries with
  | none =>
      refine (Fixed.pure _).bind fun annotated => ?_
      beta_reduce
      split
      · exact .pure _
      · exact .fail _
  | some entries =>
      refine (Fixed.annotated _ _).bind fun loaded => (Fixed.pure _).bind fun annotated => ?_
      beta_reduce
      split
      · exact .pure _
      · exact .fail _

/-- The effect of putting an operation in place. -/
def placing (path : String) (verb : Verb) (operation : Element) : Effect where
  slots key word := if key = .string path ∧ word = verb.word then some operation else none

variable {config registry} in
/-- Putting an operation in place replaces what was there, and leaves everything else. -/
theorem placing_acts {path : String} {verb : Verb} {operation : Element} {work after : Workspace}
    (runs : (addOperation path verb operation).Runs work () after) :
    (placing path verb operation).Acts work after := by
  obtain ⟨-, notices, rfl⟩ := addOperation_places runs
  generalize there : ((work.document.table "paths").get? (.string path)).getD
    (.empty .pathItem) = item
  refine ⟨fun key word => ?slots, ?tags, rfl, Element.get?_set_of_ne _ _ (by decide),
    fun start => ?unserved⟩
  case slots =>
    change _ = Option.or (if key = .string path ∧ word = verb.word then some operation else none) _
    unfold Element.slot?
    rw [Element.table_set_self, Entries.get?_put]
    by_cases here : key = .string path
    · subst here
      rw [if_pos rfl, Option.bind_some]
      by_cases same : word = verb.word
      · subst same
        rw [Element.one?_set_self, if_pos ⟨rfl, rfl⟩, Option.some_or]
      · rw [Element.one?_set_of_ne _ _ same, if_neg fun both => same both.2, Option.none_or, ← there]
        cases (work.document.table "paths").get? (.string path) <;> rfl
    · rw [if_neg here, if_neg fun both => here both.1, Option.none_or]
  case tags =>
    exact (Element.many_set_of_ne _ _ (by decide)).trans (List.append_nil _).symm
  case unserved =>
    have unserved : item.many "servers" = [] := by
      rw [← there]
      cases found : (work.document.table "paths").get? (.string path) with
      | none => rfl
      | some item => exact start.paths _ (Entries.mem_of_get? found)
    have differ : "servers" ≠ verb.word := by cases verb <;> decide
    refine ⟨?_, (Element.many_set_of_ne _ _ (by decide)).trans start.root, ?_⟩
    · rw [Element.table_set_self, Entries.keys_put]
      split
      · exact start.distinct
      next fresh =>
        exact List.nodup_append.mpr ⟨start.distinct, List.nodup_singleton _,
          fun other member last single same =>
            fresh (List.mem_singleton.mp single ▸ same ▸ member)⟩
    · have put : (item.set verb.word (.one operation)).many "servers" = [] :=
        (Element.many_set_of_ne _ _ differ).trans unserved
      rw [Element.table_set_self]
      exact @Entries.forall_put _ (fun item => item.many "servers" = []) _ _ start.paths put

/-- An operation can be put in place under every verb that is supported. -/
theorem addOperation_comes {path : String} {verb : Verb} {operation : Element}
    (supported : verb.isSupported = true) (work : Workspace) :
    ∃ after, (addOperation path verb operation).Runs work () after := by
  unfold addOperation
  simp only [runs_bind, runs_get, supported, Bool.not_true, if_false, Bool.false_eq_true]
  refine exists_comm.mp ⟨work, ?_⟩
  by_cases replaced : ((((work.document.table "paths").get? (.string path)).getD
      (.empty .pathItem)).one? verb.word).isSome
  · simp only [if_pos replaced, runs_bind]
    exact ⟨_, work, ⟨trivial, rfl⟩, (), _, runs_report.mpr rfl, runs_modifyDocument.mpr rfl⟩
  · simp only [if_neg replaced]
    exact ⟨_, work, ⟨trivial, rfl⟩, runs_modifyDocument.mpr rfl⟩

theorem addOperation_fixed (path : String) (verb : Verb) (operation : Element) :
    Fixed (addOperation path verb operation) :=
  ⟨fun _ _ _ runs => addOperation_comes (addOperation_places runs).1, placing path verb operation,
    placing_acts⟩

theorem addBinding_fixed (shared : Option Element) (binding : Binding) :
    Fixed (config.addBinding registry shared binding) := by
  unfold addBinding
  split
  · exact (Fixed.report _).bind fun _ => .pure _
  split
  · exact (Fixed.report _).bind fun _ => .pure _
  · exact (config.boundOperation_fixed registry _ _ _).bind fun made =>
      (addOperation_fixed _ _ _).bind fun _ => .pure _

theorem sharedData_fixed (way : List Nat) (service : Service) : Fixed (sharedData way service) := by
  unfold sharedData
  refine (Fixed.comment _).bind fun entries => ?_
  cases entries with
  | none => exact .pure _
  | some entries => exact (Fixed.annotated _ _).bind fun _ => .pure _

variable {config registry} in
/-- The tag of a service comes behind the others. -/
theorem addTag_acts {tag : Element} {work after : Workspace}
    (runs : (modifyDocument fun document =>
      document.set "tags" (.many (document.many "tags" ++ [tag]))).Runs work () after) :
    ({ tags := [tag] } : Effect).Acts work after := by
  obtain rfl := runs_modifyDocument.mp runs
  exact ⟨fun path verb => Element.slot?_set_of_ne _ (by decide) path verb,
    Element.many_set_self _ _ _, rfl, Element.get?_set_of_ne _ _ (by decide),
    fun start => start.set _ (by decide) (by decide)⟩

theorem addTag_fixed (tag : Element) : Fixed (modifyDocument fun document =>
    document.set "tags" (.many (document.many "tags" ++ [tag]))) :=
  ⟨fun _ _ _ _ _ => ⟨_, runs_modifyDocument.mpr rfl⟩, { tags := [tag] }, addTag_acts⟩

theorem addService_fixed (way : List Nat) (service : Service) :
    Fixed (config.addService registry way service) := by
  unfold addService
  refine (sharedData_fixed way service).bind fun shared => (Fixed.mapM fun binding _ =>
    config.addBinding_fixed registry shared binding).bind fun added => ?_
  split
  · exact (Fixed.comment _).bind fun _ => addTag_fixed _
  · exact .pure _

theorem addServices_fixed (file : SourceFile) : Fixed (config.addServices registry file) := by
  refine .forM fun item _ => ?_
  split
  · exact config.addService_fixed registry _ _
  · exact .report _

/-- The effect of adding a file without an annotation of the document is the same from every
workspace. -/
theorem addFile_fixed {file : SourceFile} (document : Unannotated (file.payload? .document)) :
    Fixed (config.addFile registry file) := by
  have overlay : Fixed (overlayFile file) := by
    unfold overlayFile
    cases read : file.payload? .document with
    | error error => exact .fail _
    | ok entries =>
        cases entries with
        | none => exact .pure _
        | some entries => exact (document entries read).elim
  rw [addFile_eq]
  exact overlay.bind fun _ => config.addServices_fixed registry file

end Config

end ServiceDoc
