import ServiceDoc.Proofs.Comment.Block
import ServiceDoc.Proofs.Document.Account
import ServiceDoc.Proofs.OpenApi.Shape
import ServiceDoc.Proofs.Operation.Fails
import ServiceDoc.Proofs.Operation.Tags

/-!
# Malformed annotations

The operation of a binding takes over what the annotations of its service and of its method say.
They are loaded from JSON, and what has another shape than its field is refused with an explanation
to the caller. But a field that lists any values is not looked into: a tag that is no text is only
found when tags are separated, and ends the build without an explanation. So does an annotation that
takes more room than there is for loading. The room that copying takes is not spoken of here.
-/

namespace ServiceDoc

open Build

/-- The entries of an annotation come from a text of JSON. -/
theorem Comment.holdDecoded_of_payload? {comment : Comment} {key : AnnotationKey}
    {entries : Entries Value} (given : comment.payload? key = .ok (some entries)) :
    holdDecoded entries = true := by
  unfold payload? annotations annotationsOf at given
  cases scanned : cut comment.raw.toList with
  | error error =>
      rw [scanned] at given
      cases given
  | ok result =>
      rw [scanned] at given
      obtain ⟨pieces, taken, same, -⟩ := exists_of_cutRest scanned
      obtain ⟨blocks, tail⟩ := result
      obtain rfl : blocks = pieces.blocks := same
      have found := Except.ok.inj given
      change (Cut.annotations ⟨pieces.blocks, tail⟩).lookup key = some entries at found
      rw [(pieces.annotate_blocks tail).last, Option.map_eq_some_iff] at found
      obtain ⟨piece, first, rfl⟩ := found
      have inside : piece ∈ pieces := List.mem_reverse.mp (List.mem_of_find?_eq_some first)
      exact Json.holdDecoded_of_objectText (taken piece inside).object

/-! ## Tags that are texts -/

/-- A sequence holds nothing but texts. Other values hold no items. -/
def Value.listsTexts : Value → Bool
  | .array _ items => items.all isText
  | _ => true

/-- The tags that a mapping lists are texts. -/
def hasTextTags (entries : Entries Value) : Bool :=
  entries.all fun entry => entry.1 ≠ .string "tags" || entry.2.listsTexts

/-- The tags that fields list are texts. -/
def TagsAreTexts (fields : List (String × Content)) : Prop :=
  ∀ items, ("tags", .list items) ∈ fields → ∀ tag ∈ items, tag.isText = true

namespace Value

theorem isText_markedFrom (root : Mark) (value : Value) :
    (value.markedFrom root).isText = value.isText := by
  cases value <;> rfl

theorem isText_stamped (stamp : Mark) (value : Value) :
    (value.stamped stamp).isText = value.isText := by
  cases value with
  | scalar scalar => cases scalar <;> rfl
  | _ => rfl

theorem all_isText_markedItems (root : Mark) (position : Nat) (items : List Value) :
    (markedItems root position items).all isText = items.all isText := by
  induction items generalizing position with
  | nil => rfl
  | cons item rest ih => rw [markedItems, List.all_cons, List.all_cons, isText_markedFrom, ih]

theorem isText_of_mem_stampedItems {stamp : Mark} {items : List Value}
    (texts : ∀ item ∈ items, item.isText = true) :
    ∀ item ∈ stampedItems stamp items, item.isText = true := by
  induction items with
  | nil => exact texts
  | cons item rest ih =>
      rw [List.forall_mem_cons] at texts
      rw [stampedItems, List.forall_mem_cons, isText_stamped]
      exact ⟨texts.1, ih texts.2⟩

theorem listsTexts_markedFrom (root : Mark) (value : Value) :
    (value.markedFrom root).listsTexts = value.listsTexts := by
  cases value with
  | array mark items => exact all_isText_markedItems root 0 items
  | _ => rfl

end Value

/-- Marking the containers of a mapping leaves its tags the texts that they are. -/
theorem hasTextTags_markedEntries (root : Mark) (position : Nat) (entries : Entries Value) :
    hasTextTags (Value.markedEntries root position entries) = hasTextTags entries := by
  unfold hasTextTags
  induction entries generalizing position with
  | nil => rfl
  | cons entry rest ih =>
      rw [Value.markedEntries, List.all_cons, List.all_cons, Value.listsTexts_markedFrom, ih]

/-- Tags that are texts are loaded as such. -/
theorem tagsAreTexts_of_load {kind : Kind} {entries : Entries Value} {element : Element}
    (plain : kind ≠ .schema ∧ kind ≠ .document) (known : ⟨"tags", .list⟩ ∈ kind.fields)
    (decoded : holdDecoded entries = true) (texts : hasTextTags entries = true)
    (loads : (Element.load kind entries).outcome = .ok element) :
    TagsAreTexts element.fields := by
  obtain ⟨parts, inner, made⟩ := Reported.outcome_bind_eq_ok.mp loads
  have own : kind.loadedFrom entries = kind := if_neg fun both => plain.1 both.1
  rw [own] at inner made
  obtain rfl := Except.ok.inj made
  rw [Element.create_of_ne plain.2]
  intro items member
  obtain ⟨field, among, same, value, inside, loaded⟩ := exists_of_mem_fields inner _ member
  obtain rfl := List.inj_on_of_nodup_map kind.fields_nodup among known same
  have value_decoded := isDecoded_of_mem decoded inside
  have listed := List.all_eq_true.mp texts _ inside
  cases settles_loadContent _ _ _ _ value value_decoded with
  | misfits _ _ _ outcome => cases loaded.symm.trans outcome
  | loads _ _ fits =>
      obtain ⟨mark, given⟩ := fits
      obtain rfl := Content.list.inj (Option.some.inj (Except.ok.inj loaded))
      intro tag member
      obtain ⟨item, inside, rfl⟩ := List.mem_map.mp member
      rw [Value.closed_of_isDecoded _ (isDecoded_of_mem_items value_decoded inside)]
      exact List.all_eq_true.mp listed item inside

namespace TagsAreTexts

variable {fields given : List (String × Content)} {operation shared : Element}

theorem setField {key : String} {content : Content} (texts : TagsAreTexts fields)
    (inner : key = "tags" → ∀ items, content = .list items → ∀ tag ∈ items, tag.isText = true) :
    TagsAreTexts (Element.setField fields key content) := by
  intro items member
  rcases Element.mem_setField member with old | new
  · exact texts items old
  · obtain ⟨rfl, rfl⟩ := Prod.mk.inj new
    exact inner rfl items rfl

theorem set_of_ne (texts : TagsAreTexts operation.fields) (key : String) (other : key ≠ "tags")
    (content : Content) : TagsAreTexts (operation.set key content).fields :=
  texts.setField fun same => (other same).elim

theorem isText (texts : TagsAreTexts operation.fields) :
    ∀ tag ∈ operation.list "tags", tag.isText = true := by
  unfold Element.list
  split
  next items found => exact texts items (Element.mem_of_get? found)
  next => exact fun _ member => (List.not_mem_nil member).elim

theorem share (texts : TagsAreTexts operation.fields) (others : TagsAreTexts shared.fields)
    (way : List Nat) : TagsAreTexts (Operation.share way shared operation).fields := by
  have secured (parameters servers security : Content) (extensions : Entries Value) :
      TagsAreTexts (((Operation.appendList ((operation.set "parameters" parameters).withExtensions
        extensions) "tags" (shared.list "tags")).set "servers" servers).set "security"
          security).fields := by
    have extended := texts.set_of_ne "parameters" (by decide) parameters
    have tagged : TagsAreTexts (Operation.appendList ((operation.set "parameters"
        parameters).withExtensions extensions) "tags" (shared.list "tags")).fields := by
      refine TagsAreTexts.setField extended fun _ items same tag member => ?_
      obtain rfl := Content.list.inj same
      exact (List.mem_append.mp member).elim (extended.isText tag) (others.isText tag)
    exact (tagged.set_of_ne "servers" (by decide) _).set_of_ne "security" (by decide) _
  unfold Operation.share
  dsimp only
  split
  · exact secured _ _ _ _
  · exact (secured _ _ _ _).set_of_ne "externalDocs" (by decide) _

theorem share_option {service : Option Element} (texts : TagsAreTexts operation.fields)
    (others : ∀ shared ∈ service, TagsAreTexts shared.fields) (way : List Nat) :
    TagsAreTexts (match service with
      | some shared => Operation.share way shared operation
      | none => operation).fields := by
  cases service with
  | none => exact texts
  | some shared => exact texts.share (others shared rfl) way

/-- A list is merged from a list alone, which comes behind the one that was there. -/
theorem mergeContent_eq_list {way : List Nat} {current : Option Content} {content : Content}
    {items : List Value} (merged : mergeContent way current content = .list items) :
    ∃ added old, content = .list added ∧ (old = [] ∨ current = some (.list old)) ∧
      items = old ++ Value.stampedItems (stampOf way) added := by
  unfold mergeContent at merged
  split at merged
  · cases merged
  · cases merged
  next added =>
    dsimp only at merged
    split at merged
    next old =>
      exact ⟨added, old, rfl, .inr rfl, (Content.list.inj merged).symm⟩
    next => exact ⟨added, [], rfl, .inl rfl, (Content.list.inj merged).symm⟩
  · dsimp only at merged
    split at merged <;> cases merged
  · split at merged
    · split at merged <;> cases merged
    · cases merged
  · dsimp only at merged
    split at merged <;> cases merged
  · split at merged <;> cases merged

theorem mergeFields (texts : TagsAreTexts fields) (others : TagsAreTexts given) (way : List Nat)
    (position : Nat) : TagsAreTexts (mergeFields way position fields given) := by
  induction given generalizing fields position with
  | nil => exact texts
  | cons entry rest ih =>
      obtain ⟨key, content⟩ := entry
      refine ih (texts.setField ?_) (fun items member => others items (.tail _ member)) _
      rintro rfl items merged
      obtain ⟨added, old, rfl, held, rfl⟩ := mergeContent_eq_list merged
      intro tag member
      rcases List.mem_append.mp member with earlier | later
      · rcases held with rfl | held
        · exact (List.not_mem_nil earlier).elim
        · exact texts old (mem_of_lookup held) tag earlier
      · exact Value.isText_of_mem_stampedItems (others added (.head _)) tag later

theorem mergeAt (texts : TagsAreTexts operation.fields) (others : TagsAreTexts shared.fields)
    (way : List Nat) : TagsAreTexts (operation.mergeAt way shared).fields := by
  rw [Element.fields_mergeAt]
  exact texts.mergeFields others way 0

theorem completeHeaders (texts : TagsAreTexts operation.fields) :
    TagsAreTexts (Operation.completeHeaders operation).fields := by
  unfold Operation.completeHeaders
  split
  · exact texts
  · exact texts.set_of_ne "parameters" (by decide) _

end TagsAreTexts

namespace Config

variable {config : Config} {registry : Registry} {binding : Binding} {work after : Workspace}

/-- The tag of an operation that is assembled is the name of its service. -/
theorem tagsAreTexts_of_assemble {heading : Heading} {rule : Rule} {input output : Option Message}
    {operation : Element} {path : String}
    (runs : (config.assemble registry heading rule input output).Runs work (operation, path)
      after) : TagsAreTexts operation.fields := by
  unfold assemble at runs
  simp only [runs_bind, runs_pure, Prod.mk.injEq] at runs
  obtain ⟨_, _, _, _, _, _, _, _, _, _, _, _, body, _, _, ⟨rfl, -⟩, -⟩ := runs
  have tagged : TagsAreTexts ((Element.empty .operation).set "tags"
      (.list [.string heading.tag])).fields := by
    refine TagsAreTexts.setField (fun _ member => (List.not_mem_nil member).elim) ?_
    rintro - items same tag member
    obtain rfl := Content.list.inj same
    rw [List.mem_singleton.mp member]
    rfl
  have described :=
    tagged.set_of_ne "description" (by decide) (.value (.string heading.description))
  have named := described.set_of_ne "operationId" (by decide) (.value (.string heading.id))
  have answering (parameters responses servers : Content) :=
    ((named.set_of_ne "parameters" (by decide) parameters).set_of_ne "responses" (by decide)
      responses).set_of_ne "servers" (by decide) servers
  cases body with
  | none => exact answering _ _ _
  | some body => exact (answering _ _ _).set_of_ne "requestBody" (by decide) _

/-! ## How adding an operation fails -/

/-- A mapping is what the service of a binding says about its operations, or what the method says
about its own. -/
def Binding.IsAnnotated (binding : Binding) (entries : Entries Value) : Prop :=
  binding.service.comment.payload? .service = .ok (some entries) ∨
    binding.method.comment.payload? .operation = .ok (some entries)

/-- The failures of adding the operation of a binding that are not explained to the caller. -/
inductive Binding.Escapes (registry : Registry) (binding : Binding) : Failure → Prop where
  | longInteger : Binding.Escapes registry binding (.comment .longInteger)
  | tooDeep : Binding.Escapes registry binding (.comment .tooDeep)
  /-- The entry of a map has no field for the value. -/
  | mapEntry {name : String} {entry : Message} (known : (name, entry) ∈ registry.messages)
      (isMapEntry : entry.isMapEntry = true) (short : entry.fields.length < 2) :
      Binding.Escapes registry binding (.noMapValue entry.fullName)
  /-- What the service says goes deeper than there is room for. -/
  | deepService {entries : Entries Value} {root : Mark} {shared : Element}
      (given : binding.service.comment.payload? .service = .ok (some entries))
      (loads : (Element.load .serviceExtension
        (Value.markedEntries root 0 entries)).outcome = .ok shared)
      (deep : allRoom < shared.room .loading) :
      Binding.Escapes registry binding (.payload binding.service.fullName .endless)
  /-- What the method says goes deeper than there is room for. -/
  | deepMethod {entries : Entries Value} {root : Mark} {operation : Element}
      (given : binding.method.comment.payload? .operation = .ok (some entries))
      (loads : (Element.load .operation
        (Value.markedEntries root 0 entries)).outcome = .ok operation)
      (deep : allRoom < operation.room .loading) :
      Binding.Escapes registry binding (.payload binding.place .endless)
  /-- An annotation lists a tag that is no text. -/
  | tag {entries : Entries Value} {tag : Value} {failure : Failure}
      (annotated : binding.IsAnnotated entries) (odd : hasTextTags entries = false)
      (noText : tag.isText = false) (same : failure = .tagNotText tag ∨ failure = .tagNotCut tag) :
      Binding.Escapes registry binding failure

/-- A failure is explained to the caller or is one of those that are not. -/
def Binding.Fails (registry : Registry) (binding : Binding) (failure : Failure) : Prop :=
  failure.isExplained = true ∨ binding.Escapes registry failure

theorem Binding.fails_of_comment (error : CommentError) :
    binding.Fails registry (.comment error) := by
  cases error with
  | longInteger => exact .inr .longInteger
  | tooDeep => exact .inr .tooDeep
  | _ => exact .inl rfl

theorem Binding.fails_of_hinders {failure : Failure} (hinders : registry.Hinders failure) :
    binding.Fails registry failure := by
  cases hinders with
  | comment error => exact fails_of_comment error
  | mapEntry known isMapEntry short => exact .inr (.mapEntry known isMapEntry short)

/-- What comes from a text of JSON and is refused is explained to the caller, unless it is too
deep. -/
theorem Binding.annotated_fails {kind : Kind} {place : String} {entries : Entries Value}
    (decoded : holdDecoded entries = true)
    (deep : ∀ element, (Element.load kind entries).outcome = .ok element →
      allRoom < element.room .loading → binding.Escapes registry (.payload place .endless)) :
    FailsOnly (annotated place (Element.load kind entries).limited) (binding.Fails registry) := by
  refine .annotated fun error failed => ?_
  rcases Loading.exists_of_outcome_limited failed with failed | ⟨rfl, element, loads, endless⟩
  · cases Element.settles_load kind decoded with
    | loads _ outcome => cases failed.symm.trans outcome
    | misfits _ _ _ outcome =>
        obtain rfl := Except.error.inj (failed.symm.trans outcome)
        exact .inl rfl
  · exact .inr (deep element loads endless)

/-- What a service says is loaded, with tags that are texts if they were, or refused. -/
theorem sharedData_fails (binding : Binding) :
    FailsOnly (sharedData binding.serviceWay binding.service) (binding.Fails registry) := by
  unfold sharedData
  refine (FailsOnly.comment Binding.fails_of_comment).bind_of_runs fun runs => ?_
  obtain ⟨given, -⟩ := runs_comment.mp runs
  split
  · exact .pure _
  · have decoded := Comment.holdDecoded_of_payload? given
    rw [← holdDecoded_markedEntries (0 :: (binding.serviceWay ++ [0])) 0] at decoded
    exact (Binding.annotated_fails decoded fun _ => .deepService given).bind fun _ => .pure _

theorem tagsAreTexts_of_sharedData {shared : Element}
    (runs : (sharedData binding.serviceWay binding.service).Runs work (some shared) after)
    (texts : ∀ entries, binding.IsAnnotated entries → hasTextTags entries = true) :
    TagsAreTexts shared.fields := by
  unfold sharedData at runs
  simp only [runs_bind, runs_comment] at runs
  obtain ⟨entries, _, ⟨given, rfl⟩, rest⟩ := runs
  cases entries with
  | none => cases (runs_pure.mp rest).1
  | some entries =>
      simp only [runs_bind, runs_annotated, runs_pure, Option.some.injEq] at rest
      obtain ⟨loaded, _, ⟨limited, -⟩, rfl, -⟩ := rest
      have loads := (Loading.outcome_limited_eq_ok.mp limited).1
      refine tagsAreTexts_of_load (by decide) (by decide) ?_ ?_ loads
      · rw [holdDecoded_markedEntries]
        exact Comment.holdDecoded_of_payload? given
      · rw [hasTextTags_markedEntries]
        exact texts entries (.inl given)

/-- The last touches to an operation fail for a tag of an annotation alone. -/
theorem finishOperation_fails {annotated : Element} (path : String)
    (tags : (∀ entries, binding.IsAnnotated entries → hasTextTags entries = true) →
      TagsAreTexts annotated.fields) :
    FailsOnly (match Operation.separateTags (Operation.completeHeaders annotated) with
      | (finished, none) => return (finished, path)
      | (_, some failure) => fail failure : Build (Element × String))
      (binding.Fails registry) := by
  split
  · exact .pure _
  next failure separated =>
    obtain ⟨tag, member, cut⟩ := Operation.exists_of_separateTags separated
    obtain ⟨noText, same⟩ := Operation.cutTag_fails cut
    by_cases texts : ∀ entries, binding.IsAnnotated entries → hasTextTags entries = true
    · have text := (tags texts).completeHeaders.isText tag member
      exact (Bool.false_ne_true (noText.symm.trans text)).elim
    · simp only [not_forall, Bool.not_eq_true] at texts
      obtain ⟨entries, given, odd⟩ := texts
      exact .fail (.inr (.tag given odd noText same))

theorem boundOperation_fails {shared : Option Element}
    (hosted : IsHosted binding.service.defaultHost)
    (tags : (∀ entries, binding.IsAnnotated entries → hasTextTags entries = true) →
      ∀ element ∈ shared, TagsAreTexts element.fields) (input : Message) :
    FailsOnly (config.boundOperation registry binding shared input)
      (binding.Fails registry) := by
  unfold boundOperation
  refine (FailsOnly.comment Binding.fails_of_comment).bind fun description => ?_
  refine ((config.assemble_fails registry hosted _ input _).mono
    fun _ => Binding.fails_of_hinders).bind_of_runs fun {_ made _} runs => ?_
  obtain ⟨operation, path⟩ := made
  have assembled := tagsAreTexts_of_assemble runs
  have extended (texts : ∀ entries, binding.IsAnnotated entries → hasTextTags entries = true) :=
    assembled.share_option (tags texts) (binding.way ++ [0])
  refine (FailsOnly.comment Binding.fails_of_comment).bind_of_runs fun {_ entries _} runs => ?_
  obtain ⟨given, -⟩ := runs_comment.mp runs
  cases entries with
  | none =>
      refine (FailsOnly.pure _).bind_of_runs fun runs => ?_
      obtain ⟨rfl, -⟩ := runs_pure.mp runs
      exact finishOperation_fails path extended
  | some entries =>
      have decoded := Comment.holdDecoded_of_payload? given
      rw [← holdDecoded_markedEntries (0 :: binding.way.dropLast) 0] at decoded
      refine (Binding.annotated_fails decoded fun _ => .deepMethod given).bind_of_runs
        fun {_ loaded _} runs => ?_
      obtain ⟨loads, -⟩ := Loading.outcome_limited_eq_ok.mp (runs_annotated.mp runs).1
      refine (FailsOnly.pure _).bind_of_runs fun runs => ?_
      obtain ⟨rfl, -⟩ := runs_pure.mp runs
      refine finishOperation_fails path fun texts => (extended texts).mergeAt ?_ _
      refine tagsAreTexts_of_load (by decide) (by decide) decoded ?_ loads
      rw [hasTextTags_markedEntries]
      exact texts entries (.inr given)

/-- Add the operation of a binding with what its service says, and say whether there is one. -/
def addAnnotated (config : Config) (registry : Registry) (binding : Binding) : Build Bool := do
  let shared ← sharedData binding.serviceWay binding.service
  config.addBinding registry shared binding

theorem addAnnotated_fails (supported : binding.rule.verb.isSupported = true)
    (known : (registry.message? binding.method.definition.input).isSome)
    (hosted : IsHosted binding.service.defaultHost) :
    FailsOnly (config.addAnnotated registry binding) (binding.Fails registry) := by
  unfold addAnnotated
  refine (sharedData_fails binding).bind_of_runs fun {_ shared _} runs => ?_
  obtain ⟨input, found⟩ := Option.isSome_iff_exists.mp known
  unfold addBinding
  simp only [supported, found, Bool.not_true, if_false, Bool.false_eq_true]
  refine (boundOperation_fails hosted (fun texts element member => ?_) input).bind fun made => ?_
  · obtain rfl := Option.mem_def.mp member
    exact tagsAreTexts_of_sharedData runs texts
  · exact (FailsOnly.ofRuns fun work =>
      ⟨(), addOperation_comes supported work⟩).bind fun _ => .pure _

/-- Whatever the annotations of a service and a method say, adding the operation of a binding with a
usual verb, a known input and a well-formed host puts the operation in place, or fails. Failures are
explained to the caller, unless a comment holds an integer that is too long or containers too deep
inside of each other, the entry of a map has no field for the value, an annotation takes more room
than there is for loading, or one lists a tag that is no text. -/
theorem addAnnotated_adds_or_fails {input : Message}
    (supported : binding.rule.verb.isSupported = true)
    (known : registry.message? binding.method.definition.input = some input)
    (hosted : IsHosted binding.service.defaultHost) (work : Workspace) :
    (∃ operation after, (config.addAnnotated registry binding).Runs work true after ∧
      config.Assembles registry binding operation ∧
      after.document.slot? (.string (config.pathPrefix ++ config.rewritten binding.rule.path input))
        binding.rule.verb.word = some operation) ∨
      ∃ failure after, config.addAnnotated registry binding work = .error failure after ∧
        (failure.isExplained = true ∨ binding.Escapes registry failure) := by
  rcases runs_or_fails (config.addAnnotated registry binding) work with
    ⟨added, after, runs⟩ | ⟨failure, after, failed⟩
  · left
    obtain ⟨shared, between, data, bound⟩ := runs_bind.mp runs
    rcases addBinding_cases bound with ⟨idle, -⟩ |
      ⟨-, rfl, other, operation, path, assembled, found, made, put⟩
    · exact (idle ⟨supported, Option.isSome_of_eq_some known⟩).elim
    · obtain rfl := Option.some.inj (known.symm.trans found)
      obtain rfl := path_of_boundOperation made
      refine ⟨operation, after, runs, ⟨shared, input, known, ?_, ?_⟩, ?_⟩
      · exact (sharedData_fixed _ _).steady data
      · exact (config.boundOperation_fixed registry binding shared input).steady made
      · rw [(placing_acts put).slots]
        exact congrArg (Option.or · _) (if_pos ⟨rfl, rfl⟩)
  · exact .inr ⟨failure, after, failed,
      addAnnotated_fails supported (Option.isSome_of_eq_some known) hosted failed⟩

end Config

/-- The binding that reads a shelf, with what its service and its method say. -/
def shelfBinding (shared own : String) : Config.Binding where
  way := [0, 0, 1, 0]
  service := {
    name := "Library", fullName := "library.Library", defaultHost := "library.example"
    comment := ⟨shared⟩, methods := [] }
  method := {
    definition := { name := "GetShelf", input := ".library.Book", output := ".library.Shelf" }
    comment := ⟨own⟩ }
  rule := ⟨"/shelves/\x7btitle\x7d", .get, ""⟩

/-- What a service says about its operations, and what a method says about its own. -/
def annotatedShelf : Config.Binding := shelfBinding
  "All books. [#openapi-service: \x7b\"tags\": [\"Shelves\"]\x7d]"
  "Reads a shelf. [#openapi-operation: \x7b\"tags\": [\"x-owner=readers\"]\x7d]"

/-- An operation with annotations of its service and its own is put in place. -/
theorem annotatedShelf_added : ∃ operation after,
    (libraryConfig.addAnnotated libraryRegistry annotatedShelf).Runs { document := default } true
      after ∧
    libraryConfig.Assembles libraryRegistry annotatedShelf operation ∧
    after.document.slot? (.string "/shelves/\x7btitle\x7d") "get" = some operation := by
  obtain ⟨book, known⟩ := Option.isSome_iff_exists.mp
    (by decide : (libraryRegistry.message? ".library.Book").isSome)
  have path : ∀ book ∈ libraryRegistry.message? ".library.Book", libraryConfig.pathPrefix ++
      libraryConfig.rewritten annotatedShelf.rule.path book = "/shelves/\x7btitle\x7d" := by
    decide +kernel
  have hosted : Config.IsHosted annotatedShelf.service.defaultHost := .inr (by decide +kernel)
  rcases @Config.addAnnotated_adds_or_fails libraryConfig libraryRegistry annotatedShelf book rfl
    known hosted { document := default } with added | failed
  · rwa [path book known] at added
  · obtain ⟨failure, after, failed, -⟩ := failed
    have comes : ((libraryConfig.addAnnotated libraryRegistry annotatedShelf).run'
        { document := default }).isSome = true := by decide +kernel
    obtain ⟨_, _, runs⟩ := exists_runs_of_isSome comes
    cases runs.symm.trans failed

/-- The shelf with tags, given as JSON. -/
def taggedShelf (tags : String) : Config.Binding :=
  shelfBinding "" ("[#openapi-operation: \x7b\"tags\": " ++ tags ++ "\x7d]")

/-- The shelf with tags has a usual verb, a known input and a well-formed host, and ends the build
without an explanation. -/
def EndsUnexplained (tags : String) : Prop :=
  (taggedShelf tags).rule.verb.isSupported = true ∧
    (libraryRegistry.message? (taggedShelf tags).method.definition.input).isSome ∧
    Config.IsHosted (taggedShelf tags).service.defaultHost ∧
    ∃ failure after, libraryConfig.addAnnotated libraryRegistry (taggedShelf tags)
      { document := default } = .error failure after ∧ failure.isExplained = false

theorem endsUnexplained_iff (tags : String) : EndsUnexplained tags ↔
    (match libraryConfig.addAnnotated libraryRegistry (taggedShelf tags)
        { document := default } with
      | .ok _ _ => true
      | .error failure _ => failure.isExplained) = false := by
  have known : (libraryRegistry.message? ".library.Book").isSome := by decide
  have hosted : Config.IsHosted "library.example" := .inr (by decide +kernel)
  constructor
  · rintro ⟨-, -, -, failure, after, failed, unexplained⟩
    rw [failed]
    exact unexplained
  · intro ended
    refine ⟨rfl, known, hosted, ?_⟩
    split at ended
    · cases ended
    next failure after failed => exact ⟨failure, after, failed, ended⟩

/-- A tag that is a number, and one that is a sequence with an equals sign, end the build without an
explanation. -/
theorem oddTags_escape : EndsUnexplained "[1]" ∧ EndsUnexplained "[[\"=\"]]" :=
  ⟨(endsUnexplained_iff _).mpr (by decide +kernel),
    (endsUnexplained_iff _).mpr (by decide +kernel)⟩

end ServiceDoc
