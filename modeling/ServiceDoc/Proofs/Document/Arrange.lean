import ServiceDoc.Proofs.Document.Closure
import ServiceDoc.Proofs.Document.Settle
import ServiceDoc.Proofs.Value.Order

/-!
# The order of component schemas

Settling a document sorts its component schemas at last and does not look at them before, so that
it comes to the same document in whichever order they were put there.
-/

namespace ServiceDoc

open Build Workspace

/-! ## Entries -/

namespace Entries

variable {α : Type} {entries first second : Entries α} {key : Scalar} {value : α}

theorem filter_put (holds : Scalar → Bool) :
    (entries.put key value).filter (fun entry => holds entry.1) =
      if holds key then Entries.put (entries.filter fun entry => holds entry.1) key value
      else entries.filter fun entry => holds entry.1 := by
  induction entries with
  | nil => cases held : holds key <;> simp [put, held]
  | cons entry rest ih =>
      obtain ⟨other, old⟩ := entry
      by_cases same : other = key
      · subst same
        cases held : holds other <;> simp [put, held]
      · rw [put, if_neg same, List.filter_cons, List.filter_cons, ih]
        cases held : holds key <;> cases other_held : holds other <;> simp [put, same]

theorem filter_putAll (holds : Scalar → Bool) :
    (entries.putAll first).filter (fun entry => holds entry.1) =
      Entries.putAll (entries.filter fun entry => holds entry.1)
        (first.filter fun entry => holds entry.1) := by
  unfold putAll
  induction first generalizing entries with
  | nil => rfl
  | cons entry rest ih =>
      rw [List.foldl_cons, ih, filter_put, List.filter_cons]
      cases held : holds entry.1 with
      | false => rw [if_neg Bool.false_ne_true, if_neg Bool.false_ne_true]
      | true => rw [if_pos rfl, if_pos rfl, List.foldl_cons]

/-- Among entries whose keys are different texts, one at most has a text, so that their order is the
same for each. -/
theorem sameByText_of_perm (moved : second.Perm first) (distinct : first.keys.Nodup)
    (texts : ∀ key ∈ first.keys, ∃ name, key = .string name) :
    SameByText (fun entry => Value.scalar entry.1) second first := by
  intro codes
  have alone (one two : Scalar × α)
      (one_member : one ∈ first.filter fun entry => (Value.scalar entry.1).codes? = codes)
      (two_member : two ∈ first.filter fun entry => (Value.scalar entry.1).codes? = codes) :
      one = two := by
    obtain ⟨one_member, one_held⟩ := List.mem_filter.mp one_member
    obtain ⟨two_member, two_held⟩ := List.mem_filter.mp two_member
    refine List.inj_on_of_nodup_map distinct one_member two_member ?_
    obtain ⟨name, named⟩ := texts one.1 (List.mem_map_of_mem one_member)
    obtain ⟨other, other_named⟩ := texts two.1 (List.mem_map_of_mem two_member)
    have same := (of_decide_eq_true one_held).trans (of_decide_eq_true two_held).symm
    rw [named, other_named] at same ⊢
    have same_codes : name.toList.map Char.toNat = other.toList.map Char.toNat :=
      Option.some.inj same
    have injective : Function.Injective Char.toNat := fun _ _ => Char.toNat_inj.mp
    rw [String.toList_injective (injective.list_map same_codes)]
  have kept := moved.filter fun entry => decide ((Value.scalar entry.1).codes? = codes)
  exact kept.eq_of_pairwise (fun one two one_member two_member _ _ =>
      alone one two (kept.mem_iff.mp one_member) two_member)
    (List.pairwise_of_forall fun _ _ => trivial) (List.pairwise_of_forall fun _ _ => trivial)

/-- Entries with different texts for keys can be put in any order. -/
theorem sameByText_putAll (moved : second.Perm first) (distinct : first.keys.Nodup)
    (texts : ∀ key ∈ first.keys, ∃ name, key = .string name) :
    SameByText (fun entry => Value.scalar entry.1) (entries.putAll second)
      (entries.putAll first) := by
  intro codes
  let holds (key : Scalar) : Bool := (Value.scalar key).codes? = codes
  have same := sameByText_of_perm moved distinct texts codes
  change (entries.putAll second).filter (fun entry => holds entry.1) =
    (entries.putAll first).filter fun entry => holds entry.1
  rw [filter_putAll, filter_putAll]
  exact congrArg (Entries.putAll _) same

end Entries

/-! ## The components of a document -/

namespace Element

theorem setField_comm {fields : List (String × Content)} {key other : String}
    (first second : Content) (differ : key ≠ other) (present : (fields.lookup key).isSome) :
    setField (setField fields key first) other second =
      setField (setField fields other second) key first := by
  induction fields with
  | nil => cases present
  | cons field rest ih =>
      obtain ⟨name, old⟩ := field
      by_cases same : name = key
      · subst same
        simp [setField, differ]
      · have inside : (rest.lookup key).isSome := by
          rwa [List.lookup_cons, beq_eq_false_iff_ne.mpr (Ne.symm same)] at present
        by_cases again : name = other
        · subst again
          simp [setField, same]
        · simp [setField, same, again, ih inside]

/-- Two fields can be set in any order if one of them is there. -/
theorem set_comm {element : Element} {key other : String} (first second : Content)
    (differ : key ≠ other) (present : (element.get? key).isSome) :
    (element.set key first).set other second = (element.set other second).set key first :=
  congrArg (mk element.kind · element.extensions) (setField_comm first second differ present)

/-- A document with other component schemas. -/
def withSchemas (document : Element) (schemas : Entries Element) : Element :=
  document.set "components" (.one (((document.one? "components").getD (.empty .components)).set
    "schemas" (.table schemas)))

variable {document : Element} {schemas others : Entries Element}

theorem withSchemas_withSchemas : (document.withSchemas schemas).withSchemas others =
    document.withSchemas others := by
  unfold withSchemas
  rw [one?_set_self, Option.getD_some, set_set, set_set]

theorem componentSchemas_withSchemas :
    (document.withSchemas schemas).componentSchemas = schemas := by
  unfold withSchemas componentSchemas
  rw [one?_set_self, Option.getD_some, table_set_self]

/-- The keys of names with their schemas. -/
def keyed (added : List (String × Element)) : Entries Element :=
  added.map fun entry => (.string entry.1, entry.2)

theorem putSchemas_withSchemas (added : List (String × Element)) :
    putSchemas (document.withSchemas schemas) added =
      document.withSchemas (schemas.putAll (keyed added)) := by
  induction added generalizing schemas with
  | nil => rfl
  | cons entry rest ih =>
      have first : putSchema (document.withSchemas schemas) entry.1 entry.2 =
          document.withSchemas (schemas.put (.string entry.1) entry.2) := by
        change (document.withSchemas schemas).withSchemas
          ((document.withSchemas schemas).componentSchemas.put _ _) = _
        rw [withSchemas_withSchemas, componentSchemas_withSchemas]
      change putSchemas (putSchema (document.withSchemas schemas) entry.1 entry.2) rest = _
      rw [first, ih]
      rfl

/-- What is put among the component schemas of a document, if it is anything. -/
theorem putSchemas_eq {added : List (String × Element)} (some : added ≠ []) :
    putSchemas document added =
      document.withSchemas (document.componentSchemas.putAll (keyed added)) := by
  obtain ⟨entry, rest, rfl⟩ := List.exists_cons_of_ne_nil some
  exact putSchemas_withSchemas rest

/-! ## Steps that pass over the components -/

/-- A step does not look at the components of a document and leaves them as they are. -/
def Passes {ε : Type} (step : Element → Except ε Element) : Prop :=
  ∀ (document : Element) (content : Content), (document.get? "components").isSome →
    step (document.set "components" content) = (step document).map (·.set "components" content)

/-- What such a step comes to with some components it comes to with any. -/
theorem Passes.exists_eq {ε : Type} {step : Element → Except ε Element} (passes : Passes step)
    {after : Element} {content : Content} (present : (document.get? "components").isSome)
    (stepped : step (document.set "components" content) = .ok after) :
    ∃ between : Element, (between.get? "components").isSome ∧
      after = between.set "components" content ∧
      ∀ other, step (document.set "components" other) = .ok (between.set "components" other) := by
  cases own : step document with
  | error error =>
      rw [passes document content present, own] at stepped
      cases stepped
  | ok between =>
      obtain ⟨held, found⟩ := Option.isSome_iff_exists.mp present
      have kept := passes document held present
      rw [set_of_get? found, own] at kept
      have same : between = between.set "components" held := Except.ok.inj kept
      refine ⟨between, ?_, ?_, fun other => ?_⟩
      · rw [same, get?_set_self]
        rfl
      · rw [passes document content present, own] at stepped
        exact (Except.ok.inj stepped).symm
      · rw [passes document other present, own]
        rfl

theorem nameAfter_set (tag : Element) (content : Content)
    (present : (document.get? "components").isSome) :
    Title.nameAfter tag (document.set "components" content) =
      (Title.nameAfter tag document).set "components" content := by
  unfold Title.nameAfter
  rw [one?_set_of_ne _ _ (by decide)]
  dsimp only
  split
  · have still (info : Content) : ((document.set "info" info).get? "components").isSome := by
      rwa [get?_set_of_ne _ _ (by decide)]
    rw [set_comm _ _ (by decide) present, set_comm _ _ (by decide) (still _)]
  · rw [set_comm _ _ (by decide) present]

theorem passes_promote : Passes Title.promote := by
  intro document content present
  unfold Title.promote
  rw [one?_set_of_ne _ _ (by decide), many_set_of_ne _ _ (by decide)]
  dsimp only
  split
  · split
    · rfl
    split
    · rfl
    · exact congrArg Except.ok (nameAfter_set _ content present)
  · rfl

theorem hoist_set (content : Content) (present : (document.get? "components").isSome) :
    Servers.hoist (document.set "components" content) =
      (Servers.hoist document).set "components" content := by
  unfold Servers.hoist
  rw [table_set_of_ne _ _ (by decide)]
  dsimp only
  split
  · split
    · have still (paths : Content) : ((document.set "paths" paths).get? "components").isSome := by
        rwa [get?_set_of_ne _ _ (by decide)]
      unfold Servers.put
      rw [set_comm _ _ (by decide) present, set_comm _ _ (by decide) (still _)]
    · rw [set_comm _ _ (by decide) present]
  · rw [set_comm _ _ (by decide) present]

theorem passes_hoistChecked : Passes Servers.hoistChecked := by
  intro document content present
  have comparable : Servers.areComparable (document.set "components" content) =
      Servers.areComparable document := by
    unfold Servers.areComparable
    rw [table_set_of_ne _ _ (by decide)]
  unfold Servers.hoistChecked
  rw [comparable, hoist_set content present]
  split <;> rfl

theorem passes_sortTags : Passes Order.sortTags := by
  intro document content present
  unfold Order.sortTags
  rw [many_set_of_ne _ _ (by decide)]
  cases sortBy Order.tagKey (document.many "tags") with
  | error disorder => rfl
  | ok tags => exact congrArg Except.ok (set_comm _ _ (by decide) present)

theorem passes_sortPaths : Passes Order.sortPaths := by
  intro document content present
  unfold Order.sortPaths
  rw [table_set_of_ne _ _ (by decide)]
  cases Order.sortEntries (document.table "paths") with
  | error disorder => rfl
  | ok paths => exact congrArg Except.ok (set_comm _ _ (by decide) present)

/-- Sorting the component schemas that were set sets them sorted. -/
theorem sortSchemas_set {components settled : Element} :
    Order.sortSchemas (document.set "components" (.one (components.set "schemas"
        (.table schemas)))) = .ok settled ↔
      ∃ sorted, Order.sortEntries schemas = .ok sorted ∧
        settled = document.set "components" (.one (components.set "schemas" (.table sorted))) := by
  unfold Order.sortSchemas
  rw [one?_set_self, Option.getD_some]
  dsimp only
  rw [table_set_self]
  refine bind_eq_ok.trans (exists_congr fun sorted => and_congr_right fun _ => ?_)
  rw [pure_eq_ok, set_set, set_set]
  exact eq_comm

/-- A document is settled to the same with its component schemas in another order. -/
theorem Settles.arrange {settled : Element}
    (settles : (document.withSchemas schemas).Settles settled)
    (same : SameByText (fun entry => Value.scalar entry.1) schemas others) :
    (document.withSchemas others).Settles settled := by
  let components := (document.one? "components").getD (.empty .components)
  let start := document.withSchemas []
  have arranged (schemas : Entries Element) : document.withSchemas schemas =
      start.set "components" (.one (components.set "schemas" (.table schemas))) := by
    change _ = (document.withSchemas []).set "components" _
    unfold withSchemas
    rw [set_set]
  have present : (start.get? "components").isSome := by
    change ((document.withSchemas []).get? "components").isSome
    unfold withSchemas
    rw [get?_set_self]
    rfl
  rw [arranged] at settles ⊢
  obtain ⟨_, _, _, _, named, moved, tags, paths, sorting⟩ := settles
  obtain ⟨promoted, there, rfl, names⟩ := passes_promote.exists_eq present named
  obtain ⟨hoisted, there, rfl, moves⟩ := passes_hoistChecked.exists_eq there moved
  obtain ⟨tagged, there, rfl, sorts⟩ := passes_sortTags.exists_eq there tags
  obtain ⟨placed, there, rfl, places⟩ := passes_sortPaths.exists_eq there paths
  obtain ⟨sorted, found, rfl⟩ := sortSchemas_set.mp sorting
  exact ⟨_, _, _, _, names _, moves _, sorts _, places _,
    sortSchemas_set.mpr ⟨sorted, same.sortBy found, rfl⟩⟩

/-- A document is settled to the same if component schemas of different names were put into it in
another order. -/
theorem Settles.putSchemas_perm {added more : List (String × Element)} {settled : Element}
    (settles : (putSchemas document added).Settles settled) (moved : more.Perm added)
    (distinct : (added.map Prod.fst).Nodup) : (putSchemas document more).Settles settled := by
  by_cases none : added = []
  · subst none
    rw [moved.eq_nil]
    exact settles
  · have some : more ≠ [] := fun empty => none (List.perm_nil.mp (empty ▸ moved.symm))
    rw [putSchemas_eq none] at settles
    rw [putSchemas_eq some]
    have keys : (keyed added).keys = (added.map Prod.fst).map Scalar.string := by
      simp [keyed, Entries.keys]
    have keyed_moved : (keyed more).Perm (keyed added) := moved.map _
    refine settles.arrange (Entries.sameByText_putAll keyed_moved ?_ ?_).symm
    · rw [keys]
      exact distinct.map fun _ _ => Scalar.string.inj
    · intro key member
      rw [keys] at member
      obtain ⟨name, -, named⟩ := List.mem_map.mp member
      exact ⟨name, named.symm⟩

end Element

end ServiceDoc
