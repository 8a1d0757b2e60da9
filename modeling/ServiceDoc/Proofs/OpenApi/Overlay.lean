import ServiceDoc.Proofs.OpenApi.Patch
import ServiceDoc.Schema.WellKnown

/-!
# Merging what is loaded is a patch

Loading the entries of a mapping in JSON and merging the element into another of its kind changes
what that is written as by the entries themselves: the patch.
-/

namespace ServiceDoc

instance (kind other : Kind) : Decidable (kind.Admits other) :=
  inferInstanceAs (Decidable (_ ∨ _))

/-! ## Sound elements -/

mutual
/-- An element is made as its kind asks: no key is set twice, every field holds what its shape
allows, extensions have keys of their own, and a reference says what it refers to. -/
def Element.isSound : Element → Bool
  | .mk kind fields extensions =>
    decide (fields.map Prod.fst).Nodup && areSound kind fields &&
      decide (Entries.keys extensions).Nodup && extensions.all (·.1.isExtension) &&
      (kind ≠ .reference || ((fields.lookup "$ref").bind dumpContent).isSome)

/-- Fields of a kind hold what their shapes allow. -/
def areSound (kind : Kind) : List (String × Content) → Bool
  | [] => true
  | (key, content) :: fields =>
    (match kind.field? key with
      | some field => content.isSound field.shape
      | none => false) && areSound kind fields

/-- A content is what a shape allows. -/
def Content.isSound (shape : FieldShape) : Content → Bool
  | .value value =>
    match shape, value with
    | .value, _ | .boolOrOne _, .scalar (.bool _) => true
    | _, _ => false
  | .flag => shape = .flag
  | .list _ => shape = .list
  | .map _ => shape = .map
  | .one element =>
    match shape with
    | .one kind | .boolOrOne kind => decide (kind.Admits element.kind) && element.isSound
    | _ => false
  | .many elements =>
    match shape with
    | .many kind => manySound kind elements
    | _ => false
  | .table entries =>
    match shape with
    | .table kind => tableSound kind entries
    | _ => false

/-- Elements can stand in the place of a kind, and are sound. -/
def manySound (kind : Kind) : List Element → Bool
  | [] => true
  | element :: elements =>
    decide (kind.Admits element.kind) && element.isSound && manySound kind elements

/-- Elements of a mapping can stand in the place of a kind, and are sound. -/
def tableSound (kind : Kind) : List (Scalar × Element) → Bool
  | [] => true
  | (_, element) :: entries =>
    decide (kind.Admits element.kind) && element.isSound && tableSound kind entries
end

/-- An element of one of the kinds that can stand in the place of a kind. -/
structure Kind.Takes (kind : Kind) (element : Element) : Prop where
  admits : kind.Admits element.kind
  sound : element.isSound = true

variable {element : Element} {kind : Kind}

theorem takes_of_tableSound {entries : Entries Element} (sound : tableSound kind entries = true) :
    ∀ entry ∈ entries, kind.Takes entry.2 := by
  induction entries with
  | nil => exact fun _ member => (List.not_mem_nil member).elim
  | cons entry rest ih =>
      obtain ⟨key, element⟩ := entry
      simp only [tableSound, Bool.and_eq_true, decide_eq_true_iff] at sound
      obtain ⟨⟨admits, whole⟩, later⟩ := sound
      intro entry member
      rcases List.mem_cons.mp member with rfl | member
      · exact ⟨admits, whole⟩
      · exact ih later entry member

/-- What fields of a kind hold is what their shapes allow. -/
structure Element.IsShaped (element : Element) : Prop extends element.IsRegular where
  holds : ∀ field ∈ element.kind.fields, ∀ content ∈ element.get? field.key,
    content.isSound field.shape = true

theorem isSound_of_areSound {fields : List (String × Content)} (sound : areSound kind fields = true)
    {field : Field} (known : field ∈ kind.fields) :
    ∀ content ∈ fields.lookup field.key, content.isSound field.shape = true := by
  induction fields with
  | nil => exact fun _ member => nomatch member
  | cons entry rest ih =>
      obtain ⟨key, first⟩ := entry
      rw [areSound, Bool.and_eq_true] at sound
      by_cases same : field.key = key
      · subst same
        rw [List.lookup_cons_self]
        rintro content ⟨⟩
        have inner := sound.1
        rwa [Kind.field?_eq_some_iff.mpr ⟨known, rfl⟩] at inner
      · rw [List.lookup_cons, beq_false_of_ne same]
        exact ih sound.2

/-- The element that a field holds. -/
def Content.element? : Content → Option Element
  | .one element => some element
  | _ => none

namespace Element

theorem isShaped_of_isSound (sound : element.isSound = true) : element.IsShaped := by
  obtain ⟨kind, fields, extensions⟩ := element
  simp only [isSound, Bool.and_eq_true, decide_eq_true_iff, List.all_eq_true] at sound
  obtain ⟨⟨⟨⟨distinct, holds⟩, extensions_distinct⟩, extended⟩, -⟩ := sound
  refine ⟨⟨distinct, extensions_distinct, fun key member => ?_⟩,
    fun field known => isSound_of_areSound holds known⟩
  obtain ⟨entry, inside, rfl⟩ := List.mem_map.mp member
  exact extended entry inside

theorem isShaped_empty (kind : Kind) : (empty kind).IsShaped :=
  ⟨⟨List.nodup_nil, List.nodup_nil, fun _ member => (List.not_mem_nil member).elim⟩,
    fun _ _ _ member => nomatch member⟩

theorem isSome_ref_of_isSound (sound : element.isSound = true)
    (reference : element.kind = .reference) :
    (element.writtenAt? "$ref").isSome = true := by
  obtain ⟨kind, fields, extensions⟩ := element
  obtain rfl : kind = .reference := reference
  rw [isSound, Bool.and_eq_true] at sound
  exact sound.2

/-- A sound element is written as one of its own kind, in every place where it can stand. -/
theorem loadedFrom_dump (takes : kind.Takes element) :
    kind.loadedFrom element.dump = element.kind := by
  obtain ⟨admits, sound⟩ := takes
  have regular := (isShaped_of_isSound sound).toIsRegular
  rw [Kind.loadedFrom, Entries.contains_eq_isSome_get?]
  by_cases schema : kind = .schema
  · subst schema
    rcases admits with own | ⟨-, reference⟩
    · have unknown : ∀ field ∈ element.kind.fields,
          Scalar.string "$ref" ≠ .string field.key := by
        rw [own]
        decide
      have absent : Scalar.string "$ref" ∉ element.extensions.keys := fun member =>
        absurd (regular.extended _ member) (by decide)
      rw [regular.get?_dump_of_ne unknown, Entries.get?_eq_none_iff.mpr absent, own]
      rfl
    · have known : (⟨"$ref", .value⟩ : Field) ∈ element.kind.fields := by
        rw [reference]
        decide
      have written := regular.get?_dump known
      rw [if_pos ⟨rfl, by rw [written]; exact isSome_ref_of_isSound sound reference⟩, reference]
  · rw [if_neg fun both => schema both.1, admits.resolve_right fun both => schema both.1]

end Element

/-! ## Loading -/

/-- What a field holds after a content is merged into it, if there is one. -/
def overlaid (way : List Nat) (old : Option Content) : Option Content → Option Content
  | none => old
  | some content => some (mergeContent way old content)

/-- What is loaded for a field of a shape is not marked, is what it is merged into nothing, and is
written as the patch of whatever it is merged into. -/
structure Loads (shape : FieldShape) (value : Value) (content : Option Content) : Prop where
  unmarked : ∀ stamp, content.map (stampedContent stamp) = content
  fresh : ∀ way, content.map (mergeContent way none) = content
  /-- Merging is patching. -/
  merged : ∀ way old, (∀ held ∈ old, held.isSound shape = true) →
    (overlaid way old content).bind dumpContent = value.patched shape (old.bind dumpContent)

/-- What is loaded for the fields of an element. -/
structure LoadsFields (kind : Kind) (entries : Entries Value) (fields : List (String × Content)) :
    Prop where
  distinct : (fields.map Prod.fst).Nodup
  /-- A field is set if its key is there. -/
  named : ∀ key ∈ fields.map Prod.fst, Scalar.string key ∈ entries.keys
  unmarked : ∀ stamp, stampedFields stamp fields = fields
  /-- Contents are what they are merged into nothing. -/
  fresh : ∀ entry ∈ fields, ∀ way, mergeContent way none entry.2 = entry.2
  merged : ∀ field ∈ kind.fields, ∀ way old, (∀ held ∈ old, held.isSound field.shape = true) →
    (overlaid way old (fields.lookup field.key)).bind dumpContent =
      match entries.get? (.string field.key) with
      | some value => value.patched field.shape (old.bind dumpContent)
      | none => old.bind dumpContent

/-! ## Merging an element -/

/-- What a field holds after fields are merged is what is merged into it. -/
theorem lookup_mergeFields_eq_overlaid {fields : List (String × Content)}
    (distinct : (fields.map Prod.fst).Nodup) (way : List Nat) (position : Nat)
    (current : List (String × Content)) (key : String) :
    ∃ inside, (mergeFields way position current fields).lookup key =
      overlaid inside (current.lookup key) (fields.lookup key) := by
  cases found : fields.lookup key with
  | none =>
      refine ⟨[], lookup_mergeFields_of_notMem fun member => ?_⟩
      obtain ⟨field, inside, rfl⟩ := List.mem_map.mp member
      have unlike := List.lookup_eq_none_iff.mp found field inside
      simp at unlike
  | some content => exact lookup_mergeFields distinct found

namespace Element

/-- The extensions of an element are what is written under the keys of extensions. -/
theorem IsRegular.extended_dump (regular : element.IsRegular) :
    Entries.extended element.dump = element.extensions := by
  rw [regular.dump_eq, Entries.extended, List.filter_append, List.filter_eq_nil_iff.mpr,
    List.nil_append, List.filter_eq_self.mpr]
  · exact fun entry member => regular.extended _ (List.mem_map_of_mem member)
  · intro entry member
    rw [Kind.isExtension_of_mem_tabulate (List.mem_map_of_mem member)]
    exact Bool.false_ne_true

/-- An element into which what is loaded is merged is written as the patch. -/
theorem dump_mergeAt {entries : Entries Value} {fields : List (String × Content)}
    (shaped : element.IsShaped) (loads : LoadsFields element.kind entries fields)
    (json : holdJson entries = true) (way : List Nat) :
    (element.mergeAt way (.mk element.kind fields entries.extended)).dump =
      element.kind.patch element.dump entries := by
  have regular := shaped.toIsRegular
  have merged : (element.mergeAt way (.mk element.kind fields entries.extended)).IsRegular :=
    regular.mergeAt fun key member => (Entries.mem_keys_extended.mp member).2
  rw [merged.dump_eq, Kind.patch, Kind.settle, regular.extended_dump]
  refine congrArg₂ (· ++ ·) (List.filterMap_congr fun field known => congrArg _ ?_) ?_
  · change field ∈ element.kind.fields at known
    obtain ⟨inside, found⟩ := lookup_mergeFields_eq_overlaid loads.distinct way 0 element.fields
      field.key
    have written := loads.merged field known inside _ (shaped.holds field known)
    have changed : (element.mergeAt way (.mk element.kind fields entries.extended)).writtenAt?
        field.key = _ := (congrArg (Option.bind · dumpContent) found).trans written
    beta_reduce
    rw [changed, lookup_patchedFields known, regular.get?_dump known]
    cases entries.get? (.string field.key) <;> rfl
  · change element.extensions.putAll (Value.stampedEntries _ entries.extended) = _
    rw [stampedEntries_of_holdJson _ (holdJson_extended json)]

/-- Fields that are merged into nothing are added as they are. -/
theorem mergeFields_of_fresh {way : List Nat} {position : Nat}
    {current fields : List (String × Content)} (distinct : (fields.map Prod.fst).Nodup)
    (fresh : ∀ entry ∈ fields, ∀ way, mergeContent way none entry.2 = entry.2)
    (new : ∀ key ∈ fields.map Prod.fst, key ∉ current.map Prod.fst) :
    mergeFields way position current fields = current ++ fields := by
  induction fields generalizing current position with
  | nil => exact (List.append_nil current).symm
  | cons field rest ih =>
      obtain ⟨key, content⟩ := field
      obtain ⟨unlike, later⟩ := List.nodup_cons.mp distinct
      have unset : current.lookup key = none := List.lookup_eq_none_iff.mpr fun entry member =>
        bne_iff_ne.mpr fun same => new key (.head _) (same ▸ List.mem_map_of_mem member)
      rw [mergeFields, unset, fresh _ (.head _), setField_of_unset unset,
        ih later fun entry member => fresh entry (.tail _ member), List.append_assoc]
      · rfl
      · intro other member inside
        rw [List.map_append, List.mem_append] at inside
        rcases inside with old | same
        · exact new other (.tail _ member) old
        · exact unlike (List.mem_singleton.mp same ▸ member)

/-- What is loaded is written as a patch of nothing. -/
theorem dump_of_loadsFields {entries : Entries Value} {fields : List (String × Content)}
    (loads : LoadsFields kind entries fields) (json : holdJson entries = true)
    (distinct : entries.keys.Nodup) :
    (mk kind fields entries.extended).dump = kind.patch [] entries := by
  have alone : (empty kind).mergeAt [] (mk kind fields entries.extended) =
      mk kind fields entries.extended := by
    change mk kind (mergeFields [] 0 [] fields)
      (Entries.putAll [] (Value.stampedEntries _ entries.extended)) = _
    rw [mergeFields_of_fresh loads.distinct loads.fresh fun _ _ => List.not_mem_nil,
      stampedEntries_of_holdJson _ (holdJson_extended json),
      Entries.putAll_of_disjoint (Entries.nodup_keys_extended distinct) fun _ _ => List.not_mem_nil]
    rfl
  have nothing : (empty kind).dump = [] := by
    have regular := (isShaped_empty kind).toIsRegular
    rw [regular.dump_eq]
    exact (List.append_nil _).trans (List.filterMap_eq_nil_iff.mpr fun _ _ => rfl)
  have merged := dump_mergeAt (isShaped_empty kind) loads json []
  rwa [nothing, show (empty kind).kind = kind from rfl, alone] at merged

/-- An element merged into what is there, if that is of its kind, or put in its place. -/
def laidOver (way : List Nat) (old : Option Element) (element : Element) : Element :=
  match old with
  | some old => if old.kind = element.kind then old.mergeAt way element
      else element.stamped (stampOf way)
  | none => element.stamped (stampOf way)

theorem mergeContent_one (way : List Nat) (old : Option Content) :
    mergeContent way old (.one element) =
      .one (element.laidOver way (old.bind Content.element?)) := by
  cases old with
  | none => rfl
  | some held =>
      cases held with
      | one old =>
          rw [mergeContent, Option.bind_some, Content.element?, laidOver]
          split <;> rfl
      | _ => rfl

/-- What an element is laid over is what is written of an element of its kind. -/
theorem baseOf_dump {own : Kind} (takes : kind.Takes element) :
    kind.baseOf own (some (.map element.dump)) =
      if element.kind = own then element.dump else [] := by
  rw [Kind.baseOf, Option.bind_some, Value.entries?, Option.filter, loadedFrom_dump takes]
  split <;> simp_all

end Element

/-- What can be there where an element is expected: an element, or a truth value. -/
theorem isSound_cases {shape : FieldShape} (place : shape = .one kind ∨ shape = .boolOrOne kind)
    {held : Content} (sound : held.isSound shape = true) :
    (∃ element, held = .one element ∧ kind.Takes element) ∨ ∃ b, held = .value (.bool b) := by
  cases held with
  | one element =>
      rcases place with rfl | rfl <;>
        exact .inl ⟨element, rfl, of_decide_eq_true (Bool.and_eq_true_iff.mp sound).1,
          (Bool.and_eq_true_iff.mp sound).2⟩
  | value value =>
      rcases place with rfl | rfl
      · exact (Bool.false_ne_true sound).elim
      · unfold Content.isSound at sound
        split at sound
        next => contradiction
        next b same => exact .inr ⟨b, rfl⟩
        next => contradiction
  | _ =>
      rcases place with rfl | rfl <;> simp [Content.isSound] at sound

/-- An element is loaded and merged in the place of a kind. -/
theorem Loads.object {shape : FieldShape} (place : shape = .one kind ∨ shape = .boolOrOne kind)
    {entries : Entries Value} {fields : List (String × Content)}
    (loads : LoadsFields (kind.loadedFrom entries) entries fields)
    (json : holdJson entries = true) (distinct : entries.keys.Nodup) :
    Loads shape (.object [] entries)
      (some (.one (.mk (kind.loadedFrom entries) fields entries.extended))) := by
  let own := kind.loadedFrom entries
  let element := Element.mk own fields entries.extended
  have unmarked (stamp : Mark) : element.stamped stamp = element := by
    rw [Element.stamped, loads.unmarked, stampedEntries_of_holdJson _ (holdJson_extended json)]
  have fresh : element.dump = own.patch [] entries :=
    Element.dump_of_loadsFields loads json distinct
  have patched (old : Option Value) : (Value.object [] entries).patched shape old =
      some (.map (own.patch (kind.baseOf own old) entries)) := by
    rcases place with rfl | rfl <;> rfl
  refine ⟨fun stamp => congrArg (fun inner => some (Content.one inner)) (unmarked stamp),
    fun way => ?_, fun way old sound => ?_⟩
  · exact congrArg some ((Element.mergeContent_one way none).trans
      (congrArg Content.one (unmarked _)))
  · rw [patched, overlaid, Element.mergeContent_one]
    refine congrArg (fun base => some (Value.map base)) ?_
    cases old with
    | none => exact (congrArg Element.dump (unmarked _)).trans fresh
    | some held =>
        rcases isSound_cases place (sound held rfl) with ⟨inner, rfl, takes⟩ | ⟨b, rfl⟩
        · change (element.laidOver way (some inner)).dump =
            own.patch (kind.baseOf own (some (.map inner.dump))) entries
          rw [Element.baseOf_dump takes, Element.laidOver]
          by_cases same : inner.kind = own
          · rw [if_pos (show inner.kind = element.kind from same), if_pos same]
            change LoadsFields own entries fields at loads
            change (inner.mergeAt way (.mk own fields entries.extended)).dump = _
            rw [← same] at loads ⊢
            exact Element.dump_mergeAt (Element.isShaped_of_isSound takes.sound) loads json way
          · rw [if_neg (show ¬inner.kind = element.kind from same), if_neg same, unmarked, fresh]
        · exact (congrArg Element.dump (unmarked _)).trans fresh

section

variable {shape : FieldShape} {given : Value} {content : Option Content} {items : List Value}
  {elements : List Element} {entries : Entries Value} {inner : Entries Element}

theorem Loads.dumped (loads : Loads shape given content) :
    content.bind dumpContent = given.patched shape none := by
  have fresh := loads.fresh []
  have merged := loads.merged [] none fun _ member => nomatch member
  cases content with
  | none => exact merged
  | some content =>
      rw [overlaid, Option.some.inj fresh] at merged
      exact merged

/-- What is loaded for a value that changes nothing is nothing. -/
theorem Loads.unchanged (unchanged : ∀ old, given.patched shape old = old) :
    Loads shape given none :=
  ⟨fun _ => rfl, fun _ => rfl, fun _ _ _ => (unchanged _).symm⟩

theorem Loads.flag : Loads .flag (.bool true) (some .flag) :=
  ⟨fun _ => rfl, fun _ => rfl, fun _ _ _ => rfl⟩

/-- A value replaces what is there. -/
theorem Loads.value (json : given.isJson = true)
    (replaces : ∀ old, given.patched shape old = given.set?) :
    Loads shape given (some (.value given)) where
  unmarked _ := congrArg (fun copy => some (Content.value copy)) (stamped_of_isJson given json)
  fresh _ := rfl
  merged _ _ _ := (replaces _).symm

/-! ## Sequences and mappings -/

theorem Loads.list (json : areJson items = true) :
    Loads .list (.array [] items) (some (.list items)) := by
  have unmarked {stamp : Mark} : Value.stampedItems stamp items = items :=
    stampedItems_of_areJson items json
  refine ⟨fun stamp => congrArg (fun copies => some (Content.list copies)) unmarked,
    fun way => congrArg (fun copies => some (Content.list copies)) unmarked,
    fun way old sound => ?_⟩
  cases old with
  | none => exact congrArg (fun copies => dumpContent (.list copies)) unmarked
  | some held =>
      have sound := sound held rfl
      cases held with
      | list olds =>
          refine (congrArg (fun copies => dumpContent (.list (olds ++ copies))) unmarked).trans ?_
          cases olds <;> rfl
      | _ => simp [Content.isSound] at sound

theorem Loads.map (json : holdJson entries = true) (distinct : entries.keys.Nodup) :
    Loads .map (.object [] entries) (some (.map entries)) := by
  have unmarked {stamp : Mark} : Value.stampedEntries stamp entries = entries :=
    stampedEntries_of_holdJson entries json
  have alone : Entries.putAll [] entries = entries :=
    Entries.putAll_of_disjoint distinct fun _ _ => List.not_mem_nil
  refine ⟨fun stamp => congrArg (fun copies => some (Content.map copies)) unmarked,
    fun way => congrArg (fun copies => some (Content.map copies)) unmarked,
    fun way old sound => ?_⟩
  cases old with
  | none => exact congrArg (fun copies => dumpContent (.map copies)) (unmarked.trans alone.symm)
  | some held =>
      have sound := sound held rfl
      cases held with
      | map olds =>
          refine (congrArg (fun copies => dumpContent (.map (Entries.putAll olds copies)))
            unmarked).trans ?_
          cases olds <;> rfl
      | _ => simp [Content.isSound] at sound

/-- A value is loaded as an element in the place of a kind. -/
def LoadsOne (kind : Kind) (value : Value) (element : Element) : Prop :=
  Loads (.one kind) value (some (.one element))

namespace LoadsOne

theorem unmarked (loads : LoadsOne kind given element) (stamp : Mark) :
    element.stamped stamp = element :=
  Content.one.inj (Option.some.inj (Loads.unmarked loads stamp))

theorem patched_eq (loads : LoadsOne kind given element) (way : List Nat) (old : Option Element)
    (takes : ∀ held ∈ old, kind.Takes held) :
    given.patched (.one kind) (old.map fun held => .map held.dump) =
      some (.map (element.laidOver way old).dump) := by
  have merged := Loads.merged loads way (old.map Content.one) fun held member => by
    obtain ⟨inner, inside, rfl⟩ := Option.map_eq_some_iff.mp member
    have taken := takes inner inside
    exact Bool.and_eq_true_iff.mpr ⟨decide_eq_true taken.admits, taken.sound⟩
  rw [overlaid, Element.mergeContent_one] at merged
  cases old <;> exact merged.symm

end LoadsOne

theorem stampedMany_of_loads (loads : List.Forall₂ (LoadsOne kind) items elements) (stamp : Mark) :
    stampedMany stamp elements = elements := by
  induction loads with
  | nil => rfl
  | cons first _ ih => rw [stampedMany, first.unmarked, ih]

theorem dumpMany_of_loads (loads : List.Forall₂ (LoadsOne kind) items elements) :
    dumpMany elements = patchedMany kind items := by
  induction loads with
  | nil => rfl
  | cons first _ ih =>
      rw [dumpMany, patchedMany, ← Loads.dumped first, ih]
      rfl

theorem dumpMany_append (first second : List Element) :
    dumpMany (first ++ second) = dumpMany first ++ dumpMany second := by
  induction first with
  | nil => rfl
  | cons element rest ih => rw [List.cons_append, dumpMany, dumpMany, ih, List.cons_append]

theorem dumpContent_many (elements : List Element) :
    dumpContent (.many elements) = (Value.list (dumpMany elements)).set? := by
  cases elements <;> rfl

theorem Loads.many (loads : List.Forall₂ (LoadsOne kind) items elements) :
    Loads (.many kind) (.array [] items) (some (.many elements)) := by
  have unmarked {stamp : Mark} : stampedMany stamp elements = elements :=
    stampedMany_of_loads loads stamp
  refine ⟨fun stamp => congrArg (fun copies => some (Content.many copies)) unmarked,
    fun way => congrArg (fun copies => some (Content.many copies)) unmarked,
    fun way old sound => ?_⟩
  cases old with
  | none =>
      refine (congrArg (fun copies => dumpContent (.many copies)) unmarked).trans ?_
      rw [dumpContent_many, dumpMany_of_loads loads]
      rfl
  | some held =>
      have sound := sound held rfl
      cases held with
      | many olds =>
          refine (congrArg (fun copies => dumpContent (.many (olds ++ copies))) unmarked).trans ?_
          rw [dumpContent_many, dumpMany_append, dumpMany_of_loads loads]
          cases olds <;> rfl
      | _ => simp [Content.isSound] at sound

/-- A mapping to elements is loaded key by key. -/
def LoadsTable (kind : Kind) (entries : Entries Value) (inner : Entries Element) : Prop :=
  List.Forall₂ (fun entry loaded => loaded.1 = entry.1 ∧ LoadsOne kind entry.2 loaded.2)
    entries inner

/-- What is written for an element of a mapping. -/
def Element.asValue (element : Element) : Value := .map element.dump

theorem dumpTable_eq_map (inner : Entries Element) :
    dumpTable inner = inner.map (Prod.map id Element.asValue) := by
  induction inner with
  | nil => rfl
  | cons entry rest ih =>
      obtain ⟨key, element⟩ := entry
      rw [dumpTable, ih]
      rfl

theorem mergeTable_cons (way : List Nat) (position : Nat) (current : Entries Element)
    (key : Scalar) (element : Element) (rest : Entries Element) :
    mergeTable way position current ((key, element) :: rest) =
      mergeTable way (position + 1) (current.put key
        (element.laidOver (way ++ [position]) (current.get? key))) rest := by
  rw [mergeTable]
  rfl

namespace LoadsTable

theorem keys_eq (loads : LoadsTable kind entries inner) : inner.keys = entries.keys := by
  induction loads with
  | nil => rfl
  | cons first _ ih => exact congrArg₂ List.cons first.1 ih

theorem unmarked (loads : LoadsTable kind entries inner) (json : holdJson entries = true)
    (stamp : Mark) : stampedTable stamp inner = inner := by
  induction loads with
  | nil => rfl
  | cons first _ ih =>
      rw [holdJson, Bool.and_eq_true, Bool.and_eq_true] at json
      rw [stampedTable, first.2.unmarked, ih json.2, first.1,
        Scalar.stamped_of_isJsonKey json.1.1, ← first.1]

/-- Elements under new keys are added as they are. -/
theorem mergeTable_of_new (loads : LoadsTable kind entries inner) (distinct : inner.keys.Nodup)
    {way : List Nat} {position : Nat} {current : Entries Element}
    (new : ∀ key ∈ inner.keys, key ∉ current.keys) :
    mergeTable way position current inner = current ++ inner := by
  induction loads generalizing position current with
  | nil => exact (List.append_nil current).symm
  | @cons entry loaded _ rest first _ ih =>
      obtain ⟨key, element⟩ := loaded
      obtain ⟨unlike, later⟩ := List.nodup_cons.mp distinct
      have fresh := new key (.head _)
      rw [mergeTable_cons, Entries.get?_eq_none_iff.mpr fresh, Element.laidOver, first.2.unmarked,
        Entries.put_of_notMem fresh, ih later, List.append_assoc]
      · rfl
      · intro other member inside
        rw [Entries.keys_append, List.mem_append] at inside
        exact inside.elim (new other (.tail _ member)) fun same =>
          unlike (List.mem_singleton.mp same ▸ member)

/-- Merging elements under their keys is patching. -/
theorem dump_mergeTable (loads : LoadsTable kind entries inner) (distinct : inner.keys.Nodup)
    {way : List Nat} {position : Nat} {current : Entries Element}
    (takes : ∀ key ∈ inner.keys, ∀ old ∈ current.get? key, kind.Takes old) :
    dumpTable (mergeTable way position current inner) =
      patchedTable kind (dumpTable current) entries := by
  induction loads generalizing position current with
  | nil => rfl
  | @cons entry loaded _ rest first _ ih =>
      obtain ⟨key, element⟩ := loaded
      obtain ⟨name, value⟩ := entry
      obtain ⟨rfl, loads⟩ := first
      obtain ⟨unlike, later⟩ := List.nodup_cons.mp distinct
      have patched := loads.patched_eq (way ++ [position]) (current.get? key) (takes key (.head _))
      have old : Entries.get? (dumpTable current) key =
          (current.get? key).map fun held => .map held.dump := by
        rw [dumpTable_eq_map, Entries.get?_map]
        rfl
      rw [mergeTable_cons, patchedTable, old, patched, ih later]
      · rw [dumpTable_eq_map, dumpTable_eq_map, Entries.map_put]
        rfl
      · intro other member old inside
        have differ : other ≠ key := fun same => unlike (same ▸ member)
        rw [Entries.get?_put_of_ne _ _ differ] at inside
        exact takes other (.tail _ member) old inside

end LoadsTable

theorem dumpContent_table (inner : Entries Element) :
    dumpContent (.table inner) = (Value.map (dumpTable inner)).set? := by
  cases inner <;> rfl

theorem Loads.table (loads : LoadsTable kind entries inner) (json : holdJson entries = true)
    (distinct : entries.keys.Nodup) :
    Loads (.table kind) (.object [] entries) (some (.table inner)) := by
  have table_distinct : inner.keys.Nodup := loads.keys_eq ▸ distinct
  have merged {way : List Nat} {current : Entries Element}
      (takes : ∀ entry ∈ current, kind.Takes entry.2) :
      dumpContent (.table (mergeTable way 0 current inner)) =
        (Value.map (patchedTable kind (dumpTable current) entries)).set? := by
    rw [dumpContent_table, loads.dump_mergeTable table_distinct]
    exact fun key _ old inside => takes _ (Entries.mem_of_get? inside)
  refine ⟨fun stamp => congrArg (fun copies => some (Content.table copies))
      (loads.unmarked json stamp),
    fun way => congrArg (fun copies => some (Content.table copies))
      (loads.mergeTable_of_new table_distinct fun _ _ => List.not_mem_nil),
    fun way old sound => ?_⟩
  cases old with
  | none => exact merged fun _ member => (List.not_mem_nil member).elim
  | some held =>
      have sound := sound held rfl
      cases held with
      | table olds =>
          refine (merged (takes_of_tableSound sound)).trans ?_
          cases olds <;> rfl
      | _ => simp [Content.isSound] at sound

/-! ## Fields -/

namespace LoadsFields

variable {fields : List (String × Content)} {key : Scalar} {field : Field}

theorem nil : LoadsFields kind [] [] :=
  ⟨List.nodup_nil, fun _ member => (List.not_mem_nil member).elim, fun _ => rfl,
    fun _ member => (List.not_mem_nil member).elim, fun _ _ _ _ _ => rfl⟩

/-- An entry that is no field sets none. -/
theorem skip (other : ∀ field ∈ kind.fields, key ≠ .string field.key)
    (loads : LoadsFields kind entries fields) :
    LoadsFields kind ((key, given) :: entries) fields where
  distinct := loads.distinct
  named name member := .tail _ (loads.named name member)
  unmarked := loads.unmarked
  fresh := loads.fresh
  merged field known way old sound := by
    rw [loads.merged field known way old sound, Entries.get?_cons, if_neg (other field known)]

/-- What an entry changes is what is loaded for it. -/
theorem merged_cons (known : field ∈ kind.fields) (first : Loads field.shape given content)
    (loads : LoadsFields kind entries fields) {others : List (String × Content)}
    (own : others.lookup field.key = content)
    (same : ∀ other, other ≠ field.key → others.lookup other = fields.lookup other) :
    ∀ other ∈ kind.fields, ∀ way old, (∀ held ∈ old, held.isSound other.shape = true) →
      (overlaid way old (others.lookup other.key)).bind dumpContent =
        match Entries.get? ((.string field.key, given) :: entries) (.string other.key) with
        | some value => value.patched other.shape (old.bind dumpContent)
        | none => old.bind dumpContent := by
  intro other among way old sound
  rw [Entries.get?_cons]
  by_cases equal : other.key = field.key
  · obtain rfl := List.inj_on_of_nodup_map kind.fields_nodup among known equal
    rw [if_pos rfl, own]
    exact first.merged way old sound
  · rw [if_neg fun keys => equal (Scalar.string.inj keys).symm, same _ equal]
    exact loads.merged other among way old sound

theorem lookup_eq_none (loads : LoadsFields kind entries fields)
    (new : Scalar.string field.key ∉ entries.keys) : fields.lookup field.key = none :=
  List.lookup_eq_none_iff.mpr fun _ member => bne_iff_ne.mpr fun same =>
    new (loads.named _ (same ▸ List.mem_map_of_mem member))

/-- An entry of a field for which nothing is loaded sets nothing. -/
theorem keep (known : field ∈ kind.fields) (first : Loads field.shape given none)
    (new : Scalar.string field.key ∉ entries.keys) (loads : LoadsFields kind entries fields) :
    LoadsFields kind ((.string field.key, given) :: entries) fields where
  distinct := loads.distinct
  named name member := .tail _ (loads.named name member)
  unmarked := loads.unmarked
  fresh := loads.fresh
  merged := loads.merged_cons known first (loads.lookup_eq_none new) fun _ _ => rfl

/-- An entry of a field sets what is loaded for it. -/
theorem cons {content : Content} (known : field ∈ kind.fields)
    (first : Loads field.shape given (some content))
    (new : Scalar.string field.key ∉ entries.keys) (loads : LoadsFields kind entries fields) :
    LoadsFields kind ((.string field.key, given) :: entries) ((field.key, content) :: fields) where
  distinct := List.nodup_cons.mpr ⟨fun member => new (loads.named _ member), loads.distinct⟩
  named name member := by
    rcases List.mem_cons.mp member with rfl | member
    · exact .head _
    · exact .tail _ (loads.named name member)
  unmarked stamp := by
    rw [stampedFields, loads.unmarked, Option.some.inj (first.unmarked stamp)]
  fresh entry member way := by
    rcases List.mem_cons.mp member with rfl | member
    · exact Option.some.inj (first.fresh way)
    · exact loads.fresh entry member way
  merged := loads.merged_cons known first List.lookup_cons_self fun other differ =>
    List.lookup_cons.trans (by rw [beq_false_of_ne differ])

end LoadsFields

/-! ## Loading -/

/-- The kind of the elements that a field of a shape holds. -/
def FieldShape.inside? : FieldShape → Option Kind
  | .one kind | .many kind | .table kind | .boolOrOne kind => some kind
  | _ => none

/-- No field holds a document. -/
theorem Kind.inside?_ne_document (kind : Kind) :
    ∀ field ∈ kind.fields, field.shape.inside? ≠ some .document := by
  cases kind <;> decide

theorem Element.create_of_ne {own : Kind} (plain : own ≠ .document)
    (fields : List (String × Content)) (extensions : Entries Value) :
    create own fields extensions = mk own fields extensions :=
  if_neg plain

theorem Kind.loadedFrom_ne_document (plain : kind ≠ .document) (entries : Entries Value) :
    kind.loadedFrom entries ≠ .document := by
  rcases kind.admits_loadedFrom entries with same | ⟨-, reference⟩
  · rwa [same]
  · rw [reference]
    decide

/-- The kind of an element among JSON is that of its place, and what it is made of is loaded. -/
theorem loads_object {again : ContentLoader} {shape : FieldShape}
    (place : shape = .one kind ∨ shape = .boolOrOne kind) (plain : kind ≠ .document)
    (json : holdJson entries = true) (distinct : entries.keys.Nodup) {parts : Parts}
    (parts_load : (loadParts again [] (kind.loadedFrom entries) entries).outcome = .ok parts)
    (fields : LoadsFields (kind.loadedFrom entries) entries parts.fields) :
    Loads shape (.object [] entries)
      (some (.one (.create (kind.loadedFrom entries) parts.fields parts.extensions))) := by
  have extensions : parts.extensions = entries.extended :=
    (extensions_of_loadParts parts_load).trans (List.map_id _)
  rw [Element.create_of_ne (Kind.loadedFrom_ne_document plain entries), extensions]
  exact Loads.object place fields json distinct

mutual

/-- What is loaded from JSON for a field patches. -/
theorem loads_of_loadContent {again : ContentLoader} (ones : again.LoadsOnes) (place : List Nat)
    (shape : FieldShape) (plain : shape.inside? ≠ some .document) (value : Value)
    (json : value.isJson = true) {content : Option Content}
    (loads : (loadContent again [] place shape value).outcome = .ok content) :
    Loads shape value content :=
  match value with
  | .scalar scalar => by
      cases shape with
      | value =>
          cases scalar with
          | null =>
              obtain rfl := Except.ok.inj loads
              exact .unchanged fun _ => rfl
          | _ =>
              obtain rfl := Except.ok.inj loads
              exact .value json fun _ => rfl
      | flag =>
          cases scalar with
          | bool set =>
              cases set with
              | true =>
                  obtain rfl := Except.ok.inj loads
                  exact .flag
              | false =>
                  obtain rfl := Except.ok.inj loads
                  exact .unchanged fun _ => rfl
          | _ => exact (outcome_misplaced_ne loads).elim
      | boolOrOne kind =>
          cases scalar with
          | bool =>
              obtain rfl := Except.ok.inj loads
              exact .value json fun _ => rfl
          | _ => exact (outcome_misplaced_ne loads).elim
      | _ => exact (outcome_misplaced_ne loads).elim
  | .array mark items => by
      have whole := json
      rw [Value.isJson, Bool.and_eq_true, List.isEmpty_iff] at json
      obtain ⟨rfl, inner⟩ := json
      cases shape with
      | value =>
          obtain rfl := Except.ok.inj loads
          exact .value whole fun _ => rfl
      | list =>
          obtain rfl := (Except.ok.inj loads).symm.trans
            (congrArg (fun items => some (Content.list items)) (List.map_id items))
          exact .list inner
      | many kind =>
          obtain ⟨elements, many, made⟩ := Reported.outcome_bind_eq_ok.mp loads
          obtain rfl := Except.ok.inj made
          exact .many (loadsMany_of_loadMany ones place (fun same => plain (congrArg some same))
            items inner many)
      | _ => exact (outcome_misplaced_ne loads).elim
  | .object mark entries => by
      have whole := json
      rw [Value.isJson, Bool.and_eq_true, Bool.and_eq_true, List.isEmpty_iff,
        decide_eq_true_iff] at json
      obtain ⟨⟨rfl, distinct⟩, inner⟩ := json
      cases shape with
      | value =>
          obtain rfl := Except.ok.inj loads
          exact .value whole fun _ => rfl
      | map =>
          obtain rfl := (Except.ok.inj loads).symm.trans
            (congrArg (fun entries => some (Content.map entries)) (List.map_id entries))
          exact .map inner distinct
      | table kind =>
          obtain ⟨elements, tabled, made⟩ := Reported.outcome_bind_eq_ok.mp loads
          obtain rfl := Except.ok.inj made
          exact .table (loadsTable_of_loadTable ones place (fun same => plain (congrArg some same))
            entries inner tabled) inner distinct
      | one kind =>
          obtain ⟨parts, parts_load, made⟩ := Reported.outcome_bind_eq_ok.mp loads
          obtain rfl := Except.ok.inj made
          exact loads_object (.inl rfl) (fun same => plain (congrArg some same)) inner distinct
            parts_load (loadsFields_of_loadParts ones entries inner distinct parts_load)
      | boolOrOne kind =>
          obtain ⟨parts, parts_load, made⟩ := Reported.outcome_bind_eq_ok.mp loads
          obtain rfl := Except.ok.inj made
          exact loads_object (.inr rfl) (fun same => plain (congrArg some same)) inner distinct
            parts_load (loadsFields_of_loadParts ones entries inner distinct parts_load)
      | _ => exact (outcome_misplaced_ne loads).elim
  | .pair .. | .set .. | .enclosing .. => (Bool.false_ne_true json).elim

theorem loadsMany_of_loadMany {again : ContentLoader} (ones : again.LoadsOnes) (place : List Nat)
    {kind : Kind} (plain : kind ≠ .document) (items : List Value) (json : areJson items = true)
    {elements : List Element}
    (loads : (loadMany again [] place kind items).outcome = .ok elements) :
    List.Forall₂ (LoadsOne kind) items elements :=
  match items with
  | [] => by
      obtain rfl := Except.ok.inj loads
      exact .nil
  | item :: rest => by
      obtain ⟨element, others, first, later, rfl⟩ := loadMany_cons ones loads
      rw [areJson, Bool.and_eq_true] at json
      exact .cons (loads_of_loadContent ones place (.one kind)
        (fun same => plain (Option.some.inj same)) item json.1 first)
        (loadsMany_of_loadMany ones place plain rest json.2 later)

theorem loadsTable_of_loadTable {again : ContentLoader} (ones : again.LoadsOnes)
    (place : List Nat) {kind : Kind} (plain : kind ≠ .document) (entries : List (Scalar × Value))
    (json : holdJson entries = true) {elements : List (Scalar × Element)}
    (loads : (loadTable again [] place kind entries).outcome = .ok elements) :
    LoadsTable kind entries elements :=
  match entries with
  | [] => by
      obtain rfl := Except.ok.inj loads
      exact .nil
  | (key, value) :: rest => by
      obtain ⟨inner, element, others, first, later, rfl⟩ := loadTable_cons ones loads
      rw [holdJson, Bool.and_eq_true, Bool.and_eq_true] at json
      exact .cons ⟨rfl, loads_of_loadContent ones inner (.one kind)
        (fun same => plain (Option.some.inj same)) value json.1.2 first⟩
        (loadsTable_of_loadTable ones place plain rest json.2 later)

theorem loadsFields_of_loadParts {again : ContentLoader} (ones : again.LoadsOnes) {kind : Kind}
    (entries : List (Scalar × Value)) (json : holdJson entries = true)
    (distinct : (Entries.keys entries).Nodup) {parts : Parts}
    (loads : (loadParts again [] kind entries).outcome = .ok parts) :
    LoadsFields kind entries parts.fields :=
  match entries with
  | [] => by
      obtain rfl := Except.ok.inj loads
      exact .nil
  | (key, value) :: rest => by
      obtain ⟨others, later, adds⟩ := loadParts_cons loads
      obtain ⟨new, rest_distinct⟩ := List.nodup_cons.mp distinct
      rw [holdJson, Bool.and_eq_true, Bool.and_eq_true] at json
      have ih := loadsFields_of_loadParts ones rest json.2 rest_distinct later
      cases adds with
      | extension role =>
          refine ih.skip fun field known same => ?_
          have extension := Kind.role_eq_extension role
          rw [same, Kind.isExtension_of_mem_fields known] at extension
          contradiction
      | unknown role => exact ih.skip (Kind.role_eq_unknown role).2
      | field field content role inner =>
          obtain ⟨known, rfl⟩ := Kind.role_eq_field role
          have first := loads_of_loadContent ones _ field.shape
            (kind.inside?_ne_document field known) value json.1.2 inner
          cases content with
          | none => exact ih.keep known first new
          | some content => exact ih.cons known first new

end

end

/-! ## Merging -/

namespace Element

/-- What is loaded from JSON is written as a patch of nothing, and what it is merged into as a patch
of what that was written as: the result depends on this and on the JSON alone. -/
theorem dump_merge_load {loaded : Element} {entries : Entries Value} (sound : element.isSound = true)
    (plain : element.kind ≠ .document) (json : (Value.map entries).isJson = true)
    (own : element.kind.loadedFrom entries = element.kind)
    (loads : (load element.kind entries).outcome = .ok loaded) :
    loaded.dump = element.kind.patch [] entries ∧
      (element.merge loaded).dump = element.kind.patch element.dump entries := by
  rw [Value.isJson, Bool.and_eq_true, Bool.and_eq_true, decide_eq_true_iff] at json
  obtain ⟨⟨-, distinct⟩, inner⟩ := json
  obtain ⟨parts, parts_load, made⟩ := Reported.outcome_bind_eq_ok.mp loads
  rw [own] at parts_load made
  have extensions : parts.extensions = entries.extended :=
    (extensions_of_loadParts parts_load).trans (List.map_id _)
  have fields := loadsFields_of_loadParts (loadsOnes_loadAgain maxRounds) entries inner distinct
    parts_load
  obtain rfl : mk element.kind parts.fields entries.extended = loaded := by
    rw [← extensions, ← create_of_ne plain]
    exact Except.ok.inj made
  exact ⟨dump_of_loadsFields fields inner distinct,
    dump_mergeAt (isShaped_of_isSound sound) fields inner []⟩

/-- A schema of a book on a shelf. -/
def bookSchema : Element :=
  .mk .schema [
    ("required", .list [.string "title"]),
    ("properties", .table [
      (.string "title", .mk .schema [("type", .value (.string "string"))] []),
      (.string "shelf", Schema.reference "Shelf")]),
    ("description", .value (.string "A book."))] []

/-- Changes to a schema of a book. -/
def bookChanges : Entries Value := [
  (.string "description", .null),
  (.string "deprecated", .bool true),
  (.string "required", .list [.string "shelf"]),
  (.string "properties", .map [
    (.string "title", .map [(.string "maxLength", .int 80)]),
    (.string "shelf", .map [(.string "type", .string "string")]),
    (.string "sequel", .map [(.string "$ref", .string "#/components/schemas/Book")])]),
  (.string "x-shelved", .int 3)]

/-- Merging changes into the schema of a book patches it. -/
theorem dump_merge_bookChanges : ∃ loaded, (load .schema bookChanges).outcome = .ok loaded ∧
    (bookSchema.merge loaded).dump = Kind.schema.patch bookSchema.dump bookChanges := by
  have sound : bookSchema.isSound = true := by decide +kernel
  have json : (Value.map bookChanges).isJson = true := by decide +kernel
  have comes : (load .schema bookChanges).outcome.isOk = true := by decide +kernel
  cases loads : (load .schema bookChanges).outcome with
  | error => rw [loads] at comes; contradiction
  | ok loaded =>
      exact ⟨loaded, rfl, (dump_merge_load sound (by decide) json (by decide) loads).2⟩

example : Kind.schema.patch bookSchema.dump bookChanges = [
    (.string "deprecated", .bool true),
    (.string "required", .list [.string "title", .string "shelf"]),
    (.string "properties", .map [
      (.string "title", .map [(.string "maxLength", .int 80), (.string "type", .string "string")]),
      (.string "shelf", .map [(.string "type", .string "string")]),
      (.string "sequel", .map [(.string "$ref", .string "#/components/schemas/Book")])]),
    (.string "description", .string "A book."),
    (.string "x-shelved", .int 3)] := by rfl

end Element

end ServiceDoc
