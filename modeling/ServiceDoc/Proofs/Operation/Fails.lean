import ServiceDoc.Operation.Assemble
import ServiceDoc.Proofs.Build.Fails
import ServiceDoc.Proofs.Registry.Index

/-!
# How assembling an operation fails

The operation of a binding with a known input and a well-formed host is assembled unless a comment
on the way can not be read, or the entry of a map has no field for the value.
-/

namespace ServiceDoc

open Build

/-- What can keep the operation of a binding from being assembled. -/
inductive Registry.Hinders (registry : Registry) : Failure → Prop where
  | comment (error : CommentError) : registry.Hinders (.comment error)
  | mapEntry {name : String} {entry : Message} (known : (name, entry) ∈ registry.messages)
      (isMapEntry : entry.isMapEntry = true) (short : entry.fields.length < 2) :
      registry.Hinders (.noMapValue entry.fullName)

namespace Config

variable (config : Config) (registry : Registry)

/-! ## Schemas -/

theorem schemaOfMessage_fails (message : Message) :
    FailsOnly (config.schemaOfMessage message) registry.Hinders := by
  unfold schemaOfMessage
  split
  · exact .pure _
  · exact ((FailsOnly.require _).bind fun _ => .pure _).bind fun _ => .pure _

theorem schemaOfValue_fails (field : MessageField) :
    FailsOnly (config.schemaOfValue registry field) registry.Hinders := by
  have skipped (notice : Notice) :
      FailsOnly (do report notice; return none : Build (Option Element)) registry.Hinders :=
    (FailsOnly.report notice).bind fun _ => .pure _
  unfold schemaOfValue
  split
  · split
    · exact config.schemaOfMessage_fails registry _
    · exact skipped _
  · exact .pure _
  · exact .pure _
  · split
    · exact ((FailsOnly.comment .comment).bind fun _ => .pure _).bind fun _ => .pure _
    · exact skipped _
  · exact .pure _
  · exact .pure _
  · exact .pure _
  · exact skipped _

variable {registry} in
/-- The entry of the map that a field is, is a message of the registry. -/
theorem known_of_mapEntry? {field : MessageField} {entry : Message}
    (found : registry.mapEntry? field = some entry) :
    entry.isMapEntry = true ∧ ∃ name, (name, entry) ∈ registry.messages := by
  unfold Registry.mapEntry? Registry.messageOf? at found
  split at found
  · obtain ⟨given, isMapEntry⟩ := Option.filter_eq_some_iff.mp found
    split at given
    · exact ⟨isMapEntry, _, Registry.mem_of_message? given⟩
    · cases given
  · cases found

theorem schemaOfField_fails (field : MessageField) :
    FailsOnly (config.schemaOfField registry field) registry.Hinders := by
  unfold schemaOfField
  cases found : registry.mapEntry? field with
  | none => exact (config.schemaOfValue_fails registry field).bind fun _ => .pure _
  | some entry =>
      dsimp only
      split
      · exact (config.schemaOfValue_fails registry _).bind fun _ => .pure _
      next missing =>
        obtain ⟨isMapEntry, name, known⟩ := known_of_mapEntry? found
        exact .fail (.mapEntry known isMapEntry
          (Nat.lt_succ_of_le (List.getElem?_eq_none_iff.mp missing)))

/-! ## Parameters -/

theorem leafParameter_fails (field : MessageField) :
    FailsOnly (config.leafParameter registry field) registry.Hinders :=
  (FailsOnly.comment .comment).bind fun _ => (config.schemaOfField_fails registry field).bind
    fun _ => .pure _

theorem expandField_fails (fuel : Nat) (depths : Depths) (field : MessageField) :
    FailsOnly (config.expandField registry fuel depths field) registry.Hinders := by
  have leaf (field : MessageField) :=
    (config.leafParameter_fails registry field).bind fun parameter => .pure [parameter]
  have skipped (notice : Notice) :
      FailsOnly (do report notice; return [] : Build (List Parameter)) registry.Hinders :=
    (FailsOnly.report notice).bind fun _ => .pure _
  induction fuel generalizing depths field with
  | zero => exact .pure _
  | succ fuel ih =>
      unfold expandField
      split
      · exact .pure _
      split
      · exact leaf field
      split
      · exact skipped _
      split
      · exact skipped _
      split
      · exact leaf field
      refine (FailsOnly.comment .comment).bind fun description =>
        (FailsOnly.mapM fun inner _ => ?_).bind fun _ => .pure _
      split
      · exact .pure _
      · exact (ih _ _).bind fun _ => .pure _

theorem queryOf_fails (body : String) (covered : List String) (input : Message) :
    FailsOnly (config.queryOf registry body covered (some input)) registry.Hinders := by
  unfold queryOf
  split
  · exact .pure _
  dsimp only
  split
  · exact .pure _
  · exact (FailsOnly.mapM fun field _ => config.expandField_fails registry _ [] field).bind
      fun _ => .pure _

theorem placeholderParameter_fails (input : Option Message) (name : List Char) :
    FailsOnly (config.placeholderParameter registry input name) registry.Hinders := by
  unfold placeholderParameter
  split
  · exact (config.schemaOfField_fails registry _).bind fun _ =>
      (FailsOnly.comment .comment).bind fun _ => .pure _
  · exact .pure _

theorem expandPath_fails (path : String) (input : Option Message) :
    FailsOnly (config.expandPath registry path input) registry.Hinders :=
  (FailsOnly.mapM fun name _ => config.placeholderParameter_fails registry input name).bind
    fun _ => .pure _

/-! ## Bodies and responses -/

theorem bodySchema_fails (body : String) (message : Message) :
    FailsOnly (config.bodySchema registry body message) registry.Hinders := by
  have skipped (notice : Notice) :
      FailsOnly (do report notice; return none : Build (Option Element)) registry.Hinders :=
    (FailsOnly.report notice).bind fun _ => .pure _
  unfold bodySchema
  split
  · exact config.schemaOfMessage_fails registry _
  split
  · exact skipped _
  split
  · exact .pure _
  split
  · exact config.schemaOfMessage_fails registry _
  · exact skipped _

theorem requestBody_fails (body : String) (input : Message) :
    FailsOnly (config.requestBody registry body (some input)) registry.Hinders := by
  unfold requestBody
  split
  · exact .pure _
  · exact (config.bodySchema_fails registry body input).bind fun _ => .pure _

theorem responseContent_fails (message : Message) :
    FailsOnly (config.responseContent message) registry.Hinders := by
  unfold responseContent
  split
  · exact .pure _
  split
  · exact .pure _
  · exact (config.schemaOfMessage_fails registry _).bind fun _ => .pure _

theorem responses_fails (output : Option Message) :
    FailsOnly (config.responses output) registry.Hinders := by
  have answered (entries : Entries Element) : FailsOnly (if config.defaultResponse then do
        let anyName := config.schemaName anyIdentity
        let _ ← addSchema anyName WellKnown.anySchema
        let statusName := config.schemaName statusIdentity
        let _ ← addSchema statusName (WellKnown.statusSchema anyName)
        let failure := response "Default error response"
          (WellKnown.jsonContent (some (Schema.reference statusName)))
        return Entries.put entries (.string "default") failure
      else return entries : Build (Entries Element)) registry.Hinders := by
    split
    · exact (FailsOnly.addSchema _ _).bind fun _ => (FailsOnly.addSchema _ _).bind fun _ => .pure _
    · exact .pure _
  unfold responses
  cases output with
  | none => exact (FailsOnly.report _).bind fun _ => (FailsOnly.pure _).bind fun _ => answered _
  | some message =>
      exact (config.responseContent_fails registry message).bind fun _ =>
        (FailsOnly.pure _).bind fun _ => answered _

/-- There is no host, or one that an address follows from. -/
def IsHosted (host : String) : Prop := host = "" ∨ (Host.serverUrl? host).isSome

theorem servers_fails {host : String} (hosted : IsHosted host) :
    FailsOnly (servers host) registry.Hinders := by
  unfold servers
  split
  · exact .pure _
  next named =>
    split
    next malformed =>
      rcases hosted with unnamed | formed
      · exact (named unnamed).elim
      · rw [malformed] at formed
        cases formed
    · exact .pure _
    · exact .pure _

/-- The operation of a known input and a well-formed host is assembled, unless something hinders. -/
theorem assemble_fails {heading : Heading} (hosted : IsHosted heading.host) (rule : Rule)
    (input : Message) (output : Option Message) :
    FailsOnly (config.assemble registry heading rule (some input) output) registry.Hinders :=
  (config.expandPath_fails registry _ _).bind fun _ =>
    (config.queryOf_fails registry _ _ input).bind fun _ =>
      (config.responses_fails registry output).bind fun _ =>
        (servers_fails registry hosted).bind fun _ =>
          (config.requestBody_fails registry _ input).bind fun _ => .pure _

end Config

end ServiceDoc
