import ServiceDoc.Proofs.OpenApi.Reference

/-!
# References in schemas

Schemas of basic types and of well-known messages refer to nothing. Sequences, mappings and the
content of a body refer to what their parts refer to, and the schema of an error to that of any
message.
-/

namespace ServiceDoc

variable {names : String → Prop}

namespace Schema

theorem resolvesIn_ofType (type : String) : (ofType type).ResolvesIn names :=
  (Element.resolvesIn_empty (by decide)).setText (by decide) _

theorem resolvesIn_ofFormat (type format : String) : (ofFormat type format).ResolvesIn names :=
  (resolvesIn_ofType type).setText (by decide) _

theorem resolvesIn_described {schema : Element} (resolves : schema.ResolvesIn names)
    (description : String) : (described schema description).ResolvesIn names :=
  resolves.setText (by decide) _

theorem resolvesIn_sequence {items : Element} (resolves : items.ResolvesIn names) :
    (sequence items).ResolvesIn names :=
  (resolvesIn_ofType "array").set (by decide) (Content.resolvesIn_one.mpr resolves)

theorem resolvesIn_mapping {values : Element} (resolves : values.ResolvesIn names) :
    (mapping values).ResolvesIn names :=
  (resolvesIn_ofType "object").set (by decide) (Content.resolvesIn_one.mpr resolves)

end Schema

namespace WellKnown

/-- What holds of either of two choices holds of the one that is made. -/
theorem forall_mem_ite {holds : Element → Prop} {condition : Prop} [Decidable condition]
    {first : Element} {others : Option Element} (one : holds first)
    (rest : ∀ schema ∈ others, holds schema) :
    ∀ schema ∈ if condition then some first else others, holds schema := by
  split
  · exact fun schema member => Option.mem_some.mp member ▸ one
  · exact rest

/-- What is written in place for a message refers to nothing. -/
theorem resolvesIn_inlineSchema? (fullName : String) (message : Option Message) :
    ∀ schema ∈ inlineSchema? fullName message, schema.ResolvesIn names := by
  have ofType (type : String) : (Schema.ofType type).ResolvesIn names :=
    Schema.resolvesIn_ofType type
  have ofFormat (type format : String) : (Schema.ofFormat type format).ResolvesIn names :=
    Schema.resolvesIn_ofFormat type format
  have duration : (((Schema.ofType "string").setText "pattern" durationPattern).setText
      "description" durationDescription).ResolvesIn names :=
    ((ofType _).setText (by decide) _).setText (by decide) _
  unfold inlineSchema?
  exact forall_mem_ite (ofType _) <| forall_mem_ite (ofFormat _ _) <| forall_mem_ite duration <|
    forall_mem_ite (ofFormat _ _) <| forall_mem_ite (ofFormat _ _) <| forall_mem_ite (ofType _) <|
    forall_mem_ite (ofType _) <| forall_mem_ite (ofFormat _ _) <|
    forall_mem_ite (ofFormat _ _) <| forall_mem_ite (ofType _) <|
    forall_mem_ite (ofFormat _ _) fun _ member => (Option.not_mem_none _ member).elim

theorem resolvesIn_valueSchema : valueSchema.ResolvesIn names :=
  Schema.resolvesIn_described (Element.resolvesIn_empty (by decide)) _

theorem resolvesIn_anySchema : anySchema.ResolvesIn names := by
  have object : (Schema.described (Schema.ofType "object") anyDescription).ResolvesIn names :=
    Schema.resolvesIn_described (Schema.resolvesIn_ofType _) _
  refine (object.set (by decide) (Content.resolvesIn_table.mpr ?_)).set (by decide)
    Content.resolvesIn_value
  intro entry member
  exact List.mem_singleton.mp member ▸
    Schema.resolvesIn_described (Schema.resolvesIn_ofType _) _

/-- The schema of an error refers to the schema of any message alone. -/
theorem resolvesIn_statusSchema {anyName : String} (among : names anyName) :
    (statusSchema anyName).ResolvesIn names := by
  refine (Schema.resolvesIn_described (Schema.resolvesIn_ofType _) _).set (by decide) ?_
  rw [Content.resolvesIn_table]
  simp only [List.mem_cons, List.not_mem_nil, or_false, forall_eq_or_imp, forall_eq]
  refine ⟨?code, ?message, ?details⟩
  case code => exact Schema.resolvesIn_described (Schema.resolvesIn_ofFormat _ _) _
  case message => exact Schema.resolvesIn_described (Schema.resolvesIn_ofType _) _
  case details =>
    exact Schema.resolvesIn_described
      (Schema.resolvesIn_sequence (Schema.resolvesIn_reference among)) _

/-- The content of a body in JSON refers to what its schema refers to. -/
theorem resolvesIn_jsonContent {schema : Option Element}
    (resolves : ∀ element ∈ schema, element.ResolvesIn names) :
    ∀ entry ∈ jsonContent schema, entry.2.ResolvesIn names := by
  intro entry member
  rw [jsonContent, List.mem_singleton] at member
  subst member
  exact (Element.resolvesIn_empty (by decide)).setOne? (by decide) resolves

theorem resolvesIn_anyContent : ∀ entry ∈ anyContent, entry.2.ResolvesIn names := by
  intro entry member
  rw [anyContent, List.mem_singleton] at member
  subst member
  exact (Element.resolvesIn_empty (by decide)).set (by decide)
    (Content.resolvesIn_one.mpr (Schema.resolvesIn_ofType "string"))

end WellKnown

end ServiceDoc
