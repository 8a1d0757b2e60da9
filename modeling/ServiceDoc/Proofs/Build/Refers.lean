import ServiceDoc.Proofs.Build.Run

/-!
# Steps that only refer to schemas

Reflecting a field or a message refers to component schemas by name and changes neither the document
nor what is done. Such a step is described by the names that it refers to, in order; the names of a
sequence of steps are those of its parts.
-/

namespace ServiceDoc

/-- Names put behind others, each unless it is there already. -/
def requireAll (required names : List String) : List String :=
  names.foldl (fun required name =>
    if required.contains name then required else required ++ [name]) required

@[simp] theorem requireAll_nil (required : List String) : requireAll required [] = required := rfl

theorem requireAll_cons (required : List String) (name : String) (names : List String) :
    requireAll required (name :: names) =
      requireAll (if required.contains name then required else required ++ [name]) names := rfl

theorem requireAll_append (required first second : List String) :
    requireAll required (first ++ second) = requireAll (requireAll required first) second :=
  List.foldl_append ..

@[simp] theorem mem_requireAll {required names : List String} {name : String} :
    name ∈ requireAll required names ↔ name ∈ required ∨ name ∈ names := by
  induction names generalizing required with
  | nil => simp
  | cons first rest ih =>
      rw [requireAll_cons, ih, List.mem_cons]
      by_cases known : required.contains first
      · have among : first ∈ required := List.contains_iff_mem.mp known
        rw [if_pos known]
        constructor
        · rintro (member | member)
          · exact .inl member
          · exact .inr (.inr member)
        · rintro (member | rfl | member)
          · exact .inl member
          · exact .inl among
          · exact .inr member
      · rw [if_neg known, List.mem_append, List.mem_singleton, or_assoc]

/-- Names that are all there already add nothing. -/
theorem requireAll_of_subset {required names : List String}
    (inside : ∀ name ∈ names, name ∈ required) : requireAll required names = required := by
  induction names with
  | nil => rfl
  | cons first rest ih =>
      rw [List.forall_mem_cons] at inside
      rw [requireAll_cons, if_pos (List.contains_iff_mem.mpr inside.1), ih inside.2]

theorem prefix_requireAll (required names : List String) :
    required <+: requireAll required names := by
  induction names generalizing required with
  | nil => exact List.prefix_rfl
  | cons first rest ih =>
      rw [requireAll_cons]
      split
      · exact ih required
      · exact (List.prefix_append _ _).trans (ih _)

theorem nodup_requireAll {required : List String} (names : List String)
    (distinct : required.Nodup) : (requireAll required names).Nodup := by
  induction names generalizing required with
  | nil => exact distinct
  | cons first rest ih =>
      rw [requireAll_cons]
      by_cases known : required.contains first
      · rw [if_pos known]
        exact ih distinct
      · rw [if_neg known]
        have fresh : first ∉ required := fun member => known (List.contains_iff_mem.mpr member)
        exact ih (List.nodup_append.mpr ⟨distinct, List.pairwise_singleton _ _,
          fun other member last single same =>
            fresh (List.mem_singleton.mp single ▸ same ▸ member)⟩)

namespace Workspace

/-- The second workspace is the first after references to schemas of some names, but for
notices. -/
structure Refers (names : List String) (work after : Workspace) : Prop where
  document : after.document = work.document
  finished : after.finished = work.finished
  required : after.required = requireAll work.required names

namespace Refers

variable {names others : List String} {work between after : Workspace}

theorem refl (work : Workspace) : Refers [] work work := ⟨rfl, rfl, rfl⟩

theorem trans (first : Refers names work between) (second : Refers others between after) :
    Refers (names ++ others) work after :=
  ⟨second.document.trans first.document, second.finished.trans first.finished, by
    rw [second.required, first.required, requireAll_append]⟩

/-- Notices refer to nothing. -/
theorem notices (work : Workspace) (notices : List Notice) :
    Refers [] work { work with notices } := ⟨rfl, rfl, rfl⟩

theorem ofRequire {name : String} (runs : (Build.require name).Runs work () after) :
    Refers [name] work after := by
  rw [Build.runs_require] at runs
  subst runs
  refine ⟨?_, ?_, ?_⟩
  · split <;> rfl
  · split <;> rfl
  · rw [requireAll_cons, requireAll_nil]
    split <;> rfl

end Refers

/-- The second workspace is the first after references to schemas of a set of names, but for
notices. -/
def Mentions (allowed : String → Prop) (work after : Workspace) : Prop :=
  ∃ names, (∀ name ∈ names, allowed name) ∧ Refers names work after

namespace Mentions

variable {allowed : String → Prop} {work between after : Workspace}

theorem refl (work : Workspace) : Mentions allowed work work :=
  ⟨[], fun _ member => (List.not_mem_nil member).elim, Refers.refl work⟩

theorem trans (first : Mentions allowed work between) (second : Mentions allowed between after) :
    Mentions allowed work after := by
  obtain ⟨names, fits, refers⟩ := first
  obtain ⟨others, others_fit, others_refer⟩ := second
  exact ⟨names ++ others, fun name member =>
    (List.mem_append.mp member).elim (fits name) (others_fit name), refers.trans others_refer⟩

theorem notices (work : Workspace) (notices : List Notice) :
    Mentions allowed work { work with notices } :=
  ⟨[], fun _ member => (List.not_mem_nil member).elim, Refers.notices work notices⟩

theorem ofRefers (refers : Refers [] work after) : Mentions allowed work after :=
  ⟨[], fun _ member => (List.not_mem_nil member).elim, refers⟩

theorem document (mentions : Mentions allowed work after) : after.document = work.document := by
  obtain ⟨_, _, refers⟩ := mentions
  exact refers.document

theorem finished (mentions : Mentions allowed work after) : after.finished = work.finished := by
  obtain ⟨_, _, refers⟩ := mentions
  exact refers.finished

/-- What is referred to stays referred to. -/
theorem required_subset (mentions : Mentions allowed work after) :
    ∀ name ∈ work.required, name ∈ after.required := by
  obtain ⟨names, _, refers⟩ := mentions
  intro name member
  rw [refers.required, mem_requireAll]
  exact .inl member

/-- Only names of the set are added. -/
theorem required_allowed (mentions : Mentions allowed work after)
    (start : ∀ name ∈ work.required, allowed name) : ∀ name ∈ after.required, allowed name := by
  obtain ⟨names, fits, refers⟩ := mentions
  intro name member
  rw [refers.required, mem_requireAll] at member
  exact member.elim (start name) (fits name)

theorem required_nodup (mentions : Mentions allowed work after)
    (start : work.required.Nodup) : after.required.Nodup := by
  obtain ⟨names, _, refers⟩ := mentions
  exact refers.required ▸ nodup_requireAll names start

theorem required_prefix (mentions : Mentions allowed work after) :
    work.required <+: after.required := by
  obtain ⟨names, _, refers⟩ := mentions
  exact refers.required ▸ prefix_requireAll _ names

end Mentions

end Workspace

end ServiceDoc
