import ServiceDoc.Document.Ways
import ServiceDoc.Proofs.Document.Operations
import ServiceDoc.Proofs.Operation.Way
import ServiceDoc.Proofs.Registry.Rearrange
import Mathlib.Algebra.GroupWithZero.Nat
import Mathlib.Algebra.Order.BigOperators.Group.List
import Mathlib.Algebra.Order.Group.Nat

/-!
# Operations depend on the types that are mentioned

Registries that know the same of the types that files mention make the same schemas of their fields
and the same operations of their services, notices included.
-/

namespace ServiceDoc

open Build

namespace Registry

variable {registry other : Registry} {field : MessageField} {message : Message}

/-- A message of a file has the field. -/
def Declares (registry : Registry) (field : MessageField) : Prop :=
  ∃ message ∈ registry.fileMessages, field ∈ message.fields

theorem Declares.typeName (declares : registry.Declares field) :
    field.definition.typeName ∈ registry.typeNames := by
  obtain ⟨message, among, inside⟩ := declares
  obtain ⟨file, member, among⟩ := List.mem_flatMap.mp among
  refine List.mem_flatMap.mpr ⟨file, member, List.mem_append_left _ ?_⟩
  exact List.mem_flatMap.mpr ⟨message, among, List.mem_map_of_mem inside⟩

/-- The types of methods of a file are mentioned. -/
theorem mentions_of_method {file : SourceFile} {service : Service} {method : Method}
    (among : file ∈ registry.files) (inside : service ∈ file.services)
    (given : method ∈ service.methods) : method.definition.input ∈ registry.typeNames ∧
      method.definition.output ∈ registry.typeNames := by
  have names : ∀ name ∈ [method.definition.input, method.definition.output],
      name ∈ registry.typeNames := fun name member =>
    List.mem_flatMap.mpr ⟨file, among, List.mem_append_right _ (List.mem_flatMap.mpr
      ⟨service, inside, List.mem_flatMap.mpr ⟨method, given, member⟩⟩)⟩
  exact ⟨names _ (.head _), names _ (.tail _ (.head _))⟩

theorem Indexed.declares (indexed : registry.Indexed) {name : String}
    (found : registry.message? name = some message) (inside : field ∈ message.fields) :
    registry.Declares field :=
  ⟨message, indexed.defined _ (mem_of_message? found), inside⟩

theorem Indexed.declares_of_messageOf? (indexed : registry.Indexed) {inner : MessageField}
    (found : registry.messageOf? field = some message) (inside : inner ∈ message.fields) :
    registry.Declares inner :=
  indexed.declares (message?_of_messageOf? found) inside

namespace Agrees

variable (agrees : registry.Agrees other) (declares : registry.Declares field)

include agrees declares

theorem messageOf? : other.messageOf? field = registry.messageOf? field := by
  unfold Registry.messageOf?
  rw [agrees.messages _ declares.typeName]

theorem enumOf? : other.enumOf? field = registry.enumOf? field := by
  unfold Registry.enumOf?
  rw [agrees.enums _ declares.typeName]

theorem mapEntry? : other.mapEntry? field = registry.mapEntry? field := by
  unfold Registry.mapEntry?
  rw [agrees.messageOf? declares]

theorem isMap : other.isMap field = registry.isMap field := by
  unfold Registry.isMap
  rw [agrees.mapEntry? declares]

end Agrees

end Registry

theorem any_congr {α : Type} {items : List α} {first second : α → Bool}
    (same : ∀ item ∈ items, first item = second item) : items.any first = items.any second := by
  induction items with
  | nil => rfl
  | cons item rest ih =>
      rw [List.forall_mem_cons] at same
      rw [List.any_cons, List.any_cons, same.1, ih same.2]

namespace Build

variable {α β : Type} {items : List α}

theorem mapM_congr {first second : α → Build β} (same : ∀ item ∈ items, first item = second item) :
    items.mapM first = items.mapM second := by
  induction items with
  | nil => rfl
  | cons item rest ih =>
      rw [List.forall_mem_cons] at same
      rw [List.mapM_cons, List.mapM_cons, same.1, ih same.2]

theorem forM_congr {first second : α → Build Unit}
    (same : ∀ item ∈ items, first item = second item) : items.forM first = items.forM second := by
  induction items with
  | nil => rfl
  | cons item rest ih =>
      rw [List.forall_mem_cons] at same
      change (first item >>= fun _ => rest.forM first) = second item >>= fun _ => rest.forM second
      rw [same.1, ih same.2]

theorem foldlM_congr {first second : β → α → Build β}
    (same : ∀ item ∈ items, ∀ value, first value item = second value item) (start : β) :
    items.foldlM first start = items.foldlM second start := by
  induction items generalizing start with
  | nil => rfl
  | cons item rest ih =>
      rw [List.forall_mem_cons] at same
      rw [List.foldlM_cons, List.foldlM_cons, same.1]
      exact congrArg (second start item >>= ·) (funext (ih same.2))

end Build

namespace Config

variable {config : Config} {registry other : Registry} {field : MessageField} {message : Message}
  {depths : Depths}

/-! ## How far fields are expanded -/

/-- How often the fields of a registry can be expanded, when some are being expanded already. -/
def room (config : Config) (registry : Registry) (depths : Depths) : Nat :=
  (fieldNames registry).foldr
    (fun name total => (config.depth - depths.count name).toNat + total) 0

/-- Entering a field takes some of the room that names have together. -/
theorem sum_room_enter {limit : Int} {names : List String} {name : String} (inside : name ∈ names)
    (enters : ¬limit ≤ depths.count name) :
    (names.map fun other => (limit - (depths.enter name).count other).toNat).sum <
      (names.map fun other => (limit - depths.count other).toNat).sum := by
  apply List.sum_lt_sum
  · intro other _
    by_cases same : other = name
    · rw [same, Depths.count_enter_self]
      omega
    · rw [Depths.count_enter_of_ne depths same]
  · refine ⟨name, inside, ?_⟩
    rw [Depths.count_enter_self]
    omega

/-- Entering a field takes some of the room. -/
theorem room_enter {name : String} (inside : name ∈ fieldNames registry)
    (enters : ¬config.depth ≤ depths.count name) :
    config.room registry (depths.enter name) < config.room registry depths := by
  have sums (depths : Depths) : config.room registry depths =
      ((fieldNames registry).map fun name => (config.depth - depths.count name).toNat).sum := by
    rw [List.sum_eq_foldr, List.foldr_map]
    rfl
  rw [sums, sums]
  exact sum_room_enter inside enters

theorem room_nil : config.room registry [] = config.depth * fieldCount registry := by
  have start (name : String) : (config.depth - Depths.count [] name).toNat = config.depth := by
    rw [show Depths.count [] name = 0 from rfl, Int.sub_zero, Int.toNat_natCast]
  rw [← length_fieldNames]
  unfold room
  simp only [start]
  induction fieldNames registry with
  | nil => rfl
  | cons name rest ih =>
      rw [List.foldr_cons, ih, List.length_cons, Nat.mul_succ, Nat.add_comm]

/-- A field is expanded in the same way if it holds the same and the fields inside are. -/
theorem expandField_congr {fuel more : Nat} (map : other.isMap field = registry.isMap field)
    (holds : other.messageOf? field = registry.messageOf? field)
    (leaf : config.leafParameter other field = config.leafParameter registry field)
    (rest : ∀ message, registry.messageOf? field = some message → ∀ inner ∈ message.fields,
      ¬config.depth ≤ depths.count inner.fullName →
        config.expandField other more (depths.enter inner.fullName) inner =
          config.expandField registry fuel (depths.enter inner.fullName) inner) :
    config.expandField other (more + 1) depths field =
      config.expandField registry (fuel + 1) depths field := by
  unfold expandField
  rw [map, holds, leaf]
  cases found : registry.messageOf? field with
  | none => rfl
  | some message =>
      have expanded (description : String) : (message.fields.mapM fun inner => do
            if config.depth ≤ depths.count inner.fullName then return []
            let parameters ← config.expandField other more (depths.enter inner.fullName) inner
            return parameters.map (within (config.fieldName field) description)) =
          message.fields.mapM fun inner => do
            if config.depth ≤ depths.count inner.fullName then return []
            let parameters ← config.expandField registry fuel (depths.enter inner.fullName) inner
            return parameters.map (within (config.fieldName field) description) := by
        refine mapM_congr fun inner inside => ?_
        split
        · rfl
        next enters => rw [rest message found inner inside enters]
      simp only [expanded]

/-- More fuel than there is room expands no field further. -/
theorem expandField_eq {fuel more : Nat} (enough : config.room registry depths < fuel)
    (plenty : config.room registry depths < more) :
    config.expandField registry more depths field =
      config.expandField registry fuel depths field := by
  induction fuel generalizing more depths field with
  | zero => exact absurd enough (Nat.not_lt_zero _)
  | succ fuel ih =>
      obtain ⟨more, rfl⟩ := Nat.exists_eq_succ_of_ne_zero (Nat.ne_zero_of_lt plenty)
      refine expandField_congr rfl rfl rfl fun message found inner inside enters => ?_
      have among : inner.fullName ∈ fieldNames registry := List.mem_flatMap.mpr
        ⟨_, Registry.mem_of_message? (Registry.message?_of_messageOf? found),
          List.mem_map_of_mem inside⟩
      have less := room_enter among enters
      exact ih (by omega) (by omega)

/-! ## Fields -/

variable (agrees : registry.Agrees other) (indexed : registry.Indexed)

include agrees

theorem schemaOfValue_agrees (declares : registry.Declares field) :
    config.schemaOfValue other field = config.schemaOfValue registry field := by
  unfold schemaOfValue
  rw [agrees.messageOf? declares, agrees.enumOf? declares]

include indexed

theorem schemaOfField_agrees (declares : registry.Declares field) :
    config.schemaOfField other field = config.schemaOfField registry field := by
  unfold schemaOfField
  rw [agrees.mapEntry? declares, schemaOfValue_agrees agrees declares]
  cases map : registry.mapEntry? field with
  | none => rfl
  | some entry =>
      dsimp only
      cases held : entry.fields[1]? with
      | none => rfl
      | some value =>
          have found : registry.messageOf? field = some entry := by
            unfold Registry.mapEntry? at map
            split at map
            · exact (Option.filter_eq_some_iff.mp map).1
            · contradiction
          have inside := indexed.declares_of_messageOf? found (List.mem_of_getElem? held)
          dsimp only
          rw [schemaOfValue_agrees agrees inside]

theorem leafParameter_agrees (declares : registry.Declares field) :
    config.leafParameter other field = config.leafParameter registry field := by
  unfold leafParameter
  rw [schemaOfField_agrees agrees indexed declares]

theorem expandField_agrees {fuel : Nat} (declares : registry.Declares field) :
    config.expandField other fuel depths field = config.expandField registry fuel depths field := by
  induction fuel generalizing depths field with
  | zero => rfl
  | succ fuel ih =>
      exact expandField_congr (agrees.isMap declares) (agrees.messageOf? declares)
        (leafParameter_agrees agrees indexed declares) fun message found inner inside _ =>
          ih (indexed.declares_of_messageOf? found inside)

/-- The component schema of a message. -/
theorem messageSchema_agrees (among : message ∈ registry.fileMessages) :
    config.messageSchema other message = config.messageSchema registry message := by
  have properties : message.fields.foldlM (config.addProperty other) {} =
      message.fields.foldlM (config.addProperty registry) {} := by
    refine foldlM_congr (fun field inside value => ?_) _
    unfold addProperty
    rw [schemaOfField_agrees agrees indexed ⟨message, among, inside⟩]
  unfold messageSchema
  rw [properties]

/-! ## Operations -/

variable (more : fieldCount registry ≤ fieldCount other)

include more

theorem queryParameters_agrees (declares : registry.Declares field) :
    config.queryParameters other [] field = config.queryParameters registry [] field := by
  have slack : Depths.slack [] = 0 := rfl
  have larger := Nat.mul_le_mul_left config.depth more
  unfold queryParameters
  rw [expandField_agrees agrees indexed declares, slack, Nat.add_zero]
  exact expandField_eq (by rw [room_nil]; exact Nat.lt_succ_self _)
    (by rw [room_nil]; exact Nat.lt_succ_of_le larger)

theorem queryOf_agrees {body : String} {covered : List String}
    (declares : ∀ field ∈ message.fields, registry.Declares field) :
    config.queryOf other body covered (some message) =
      config.queryOf registry body covered (some message) := by
  have parameters : (queryFields covered message).mapM (config.queryParameters other []) =
      (queryFields covered message).mapM (config.queryParameters registry []) :=
    mapM_congr fun field inside =>
      queryParameters_agrees agrees indexed more (declares field (List.mem_filter.mp inside).1)
  unfold queryOf
  simp only [parameters]

omit more in
theorem expandPath_agrees {path : String}
    (declares : ∀ field ∈ message.fields, registry.Declares field) :
    config.expandPath other path (some message) =
      config.expandPath registry path (some message) := by
  have placeholder (name : List Char) :
      config.placeholderParameter other (some message) name =
        config.placeholderParameter registry (some message) name := by
    unfold placeholderParameter
    rw [Option.bind_some]
    cases found : message.field? (String.ofList name) with
    | none => rfl
    | some field =>
        have inside := declares field (List.mem_of_find?_eq_some found)
        dsimp only
        rw [schemaOfField_agrees agrees indexed inside]
  have same : config.placeholderParameter other (some message) =
      config.placeholderParameter registry (some message) := funext placeholder
  unfold expandPath
  rw [same]

omit indexed more in
theorem requestBody_agrees {body : String}
    (declares : ∀ field ∈ message.fields, registry.Declares field) :
    config.requestBody other body (some message) =
      config.requestBody registry body (some message) := by
  have selected :
      config.bodySchema other body message = config.bodySchema registry body message := by
    unfold bodySchema
    cases found : message.field? body with
    | none => rfl
    | some field =>
        dsimp only
        rw [agrees.messageOf? (declares field (List.mem_of_find?_eq_some found))]
  unfold requestBody
  simp only [selected]

/-- The operation of a binding of a file. -/
theorem addBinding_agrees {shared : Option Element} {binding : Binding}
    (input : binding.method.definition.input ∈ registry.typeNames)
    (output : binding.method.definition.output ∈ registry.typeNames) :
    config.addBinding other shared binding = config.addBinding registry shared binding := by
  unfold addBinding
  rw [agrees.messages _ input]
  cases found : registry.message? binding.method.definition.input with
  | none => rfl
  | some message =>
      have declares (field : MessageField) (inside : field ∈ message.fields) :=
        indexed.declares found inside
      have bound : config.boundOperation other binding shared message =
          config.boundOperation registry binding shared message := by
        unfold boundOperation assemble
        simp only [agrees.messages _ output, expandPath_agrees agrees indexed declares,
          queryOf_agrees agrees indexed more declares, requestBody_agrees agrees declares]
      simp only [bound]

/-- The operations of a file. -/
theorem addFile_agrees {file : SourceFile} (file_among : file ∈ registry.files) :
    config.addFile other file = config.addFile registry file := by
  rw [addFile_eq, addFile_eq]
  have services : config.addServices other file = config.addServices registry file := by
    refine forM_congr fun item member => ?_
    have inside := List.fst_mem_of_mem_zipIdx member
    have bound (shared : Option Element) :
        (bindings [file.position, item.2] item.1).mapM (config.addBinding other shared) =
          (bindings [file.position, item.2] item.1).mapM (config.addBinding registry shared) := by
      refine mapM_congr fun binding among => ?_
      obtain ⟨input, output⟩ := Registry.mentions_of_method file_among inside (mem_bindings among).1
      exact addBinding_agrees agrees indexed more input output
    unfold addService
    simp only [bound]
  rw [services]

/-! ## Long ways -/

omit more in
theorem isLong_agrees {steps : Nat} (declares : registry.Declares field) :
    config.isLong other steps depths field = config.isLong registry steps depths field := by
  induction steps generalizing depths field with
  | zero => rfl
  | succ steps ih =>
      unfold isLong
      rw [agrees.messageOf? declares, agrees.isMap declares]
      cases found : registry.messageOf? field with
      | none => rfl
      | some message =>
          refine congrArg (_ && ·) (any_congr fun inner inside => ?_)
          rw [ih (indexed.declares_of_messageOf? found inside)]

omit more in
/-- Files have a long way by one registry if they have by the other. -/
theorem hasLongWay_agrees {files : List SourceFile}
    (among : ∀ file ∈ files, file ∈ registry.files) :
    config.hasLongWay other files = config.hasLongWay registry files := by
  refine any_congr fun file member => any_congr fun service inside =>
    congrArg (_ && ·) (any_congr fun binding bound => ?_)
  obtain ⟨input, -⟩ := Registry.mentions_of_method (among file member) inside (mem_bindings bound).1
  unfold isLongBinding
  rw [agrees.messages _ input]
  cases found : registry.message? binding.method.definition.input with
  | none => rfl
  | some message =>
      refine congrArg (_ && ·) (congrArg (_ && ·) (any_congr fun field inside => ?_))
      exact isLong_agrees agrees indexed (indexed.declares found inside)

end Config

end ServiceDoc
