import ServiceDoc.Generation
import ServiceDoc.Proofs.Config.Parameter
import ServiceDoc.Proofs.Text.Case
import ServiceDoc.Proofs.Value.Sorting
import Mathlib.Logic.Function.Basic

/-!
# What the parameter of a run decides

A parameter decides a configuration exactly if all its keys are known and the last value of every
key can be read and is allowed. Every option is then what the last value of its key says, or its
default.
-/

namespace ServiceDoc

/-- The truth value that a text spells, in any letter case. -/
def Text.spelledTruth? (text : String) : Option Bool :=
  let word := String.ofList (text.toList.map Char.toLower)
  if word ∈ ["true", "1", "yes"] then some true
  else if word ∈ ["false", "0", "no"] then some false
  else none

namespace Options

variable {options : Options} {values : String → Option String} {name value : String}

/-! ## Reading single values -/

/-- The names between semicolons, trimmed, without those that are empty. -/
def namesIn (text : String) : List String :=
  (((Text.cutAt ';' text.toList).map Text.trim).filter fun name => !name.isEmpty).map String.ofList

theorem readList_eq_namesIn (text : String) : readList text = namesIn text := by
  unfold readList namesIn
  induction (Text.cutAt ';' text.toList).map Text.trim with
  | nil => rfl
  | cons name rest ih =>
      rw [List.filterMap_cons, List.filter_cons, ih]
      cases name.isEmpty <;> rfl

/-- Whether the lower case of a text is among words of ASCII without i and k depends on letters of
ASCII only. -/
theorem ofList_flatMap_lower_mem_iff {words : List String}
    (plain : ∀ word ∈ words, word.toList.all fun c => c.toNat < 128 && c != 'i' && c != 'k')
    (text : List Char) :
    String.ofList (text.flatMap Text.lower) ∈ words ↔
      String.ofList (text.map Char.toLower) ∈ words := by
  have same (word : String) (member : word ∈ words) :
      String.ofList (text.flatMap Text.lower) = word ↔
        String.ofList (text.map Char.toLower) = word := by
    have each := List.all_eq_true.mp (plain word member)
    simp only [Bool.and_eq_true, decide_eq_true_eq, bne_iff_ne] at each
    simp only [← String.toList_inj, String.toList_ofList]
    apply Text.flatMap_lower_eq_iff
    · exact fun c inside => (each c inside).1.1
    · exact fun inside => (each 'i' inside).1.2 rfl
    · exact fun inside => (each 'k' inside).2 rfl
  constructor
  · intro member
    exact (same _ member).mp rfl ▸ member
  · intro member
    exact (same _ member).mpr rfl ▸ member

theorem readBool_eq_ok_iff {truth : Bool} :
    readBool name value = .ok truth ↔ Text.spelledTruth? value = some truth := by
  have positive : ∀ word ∈ ["true", "1", "yes"],
      word.toList.all fun c => c.toNat < 128 && c != 'i' && c != 'k' := by decide
  have negative : ∀ word ∈ ["false", "0", "no"],
      word.toList.all fun c => c.toNat < 128 && c != 'i' && c != 'k' := by decide
  unfold readBool Text.spelledTruth?
  dsimp only
  simp only [ofList_flatMap_lower_mem_iff positive, ofList_flatMap_lower_mem_iff negative]
  split
  · simp
  · split <;> simp

theorem readInt_eq_ok_iff {number : Int} :
    readInt name value = .ok number ↔ Text.integer? value = some number := by
  unfold readInt
  cases Text.integer? value with
  | some read => simp
  | none => simp

/-! ## Setting parameters -/

/-- The names of the parameters that set options. -/
def parameterNames : List String := [
  "version", "title", "description", "naming", "fq_schema_naming", "enum_type", "depth",
  "default_response", "output_mode", "format", "path_prefix", "services", "base"]

/-- The options that are set by values under the names of parameters. -/
def given (values : String → Option String) : Options where
  version := values "version"
  title := values "title"
  description := values "description"
  naming := values "naming"
  qualifiedNames := (values "fq_schema_naming").bind Text.spelledTruth?
  enumStyle := values "enum_type"
  depth := (values "depth").bind Text.integer?
  defaultResponse := (values "default_response").bind Text.spelledTruth?
  outputMode := values "output_mode"
  format := values "format"
  pathPrefix := values "path_prefix"
  services := (values "services").map namesIn
  base := values "base"

/-- A parameter is known and has a value that can be read. -/
structure IsReadable (name value : String) : Prop where
  known : name ∈ parameterNames
  truth : name ∈ ["fq_schema_naming", "default_response"] →
    (Text.spelledTruth? value).isSome = true
  integer : name = "depth" → (Text.integer? value).isSome = true

theorem IsReadable.of_plain (known : name ∈ parameterNames)
    (plain : name ∉ ["fq_schema_naming", "default_response", "depth"]) :
    IsReadable name value := by
  simp only [List.mem_cons, List.not_mem_nil, or_false, not_or] at plain
  refine ⟨known, fun truth => ?_, fun integer => (plain.2.2 integer).elim⟩
  rcases List.mem_pair.mp truth with same | same
  · exact (plain.1 same).elim
  · exact (plain.2.1 same).elim

/-- The value of most parameters is taken as it is. -/
theorem setParameter_given_of_plain (values : String → Option String) (value : String) :
    ∀ name ∈ parameterNames, name ∉ ["fq_schema_naming", "default_response", "depth"] →
      (given values).setParameter name value =
        .ok (given (Function.update values name (some value))) := by
  simp only [parameterNames, List.forall_mem_cons, List.not_mem_nil, false_imp_iff, implies_true,
    and_true]
  and_intros
  all_goals intro plain
  all_goals first
    | exact absurd (by decide) plain
    | simp [setParameter, given, readList_eq_namesIn]

/-- Other parameters are refused. -/
theorem setParameter_of_unknown (unknown : name ∉ parameterNames) :
    options.setParameter name value = .error (.unknownParameter name) := by
  unfold setParameter
  split
  all_goals first
    | rfl
    | exact absurd (by decide) unknown

/-- A parameter whose value has to be read. -/
theorem map_eq_ok_iff_of_read {α : Type} {read : Except ConfigError α} {parsed : Option α}
    {set : α → Options} (reads : ∀ part, read = .ok part ↔ parsed = some part)
    (sets : ∀ part, parsed = some part →
      set part = given (Function.update values name (some value)))
    (readable : IsReadable name value ↔ parsed.isSome = true) :
    read.map set = .ok options ↔
      IsReadable name value ∧ options = given (Function.update values name (some value)) := by
  rw [readable]
  cases read with
  | error error =>
      have absent : parsed = none := by
        rw [Option.eq_none_iff_forall_ne_some]
        intro part found
        exact nomatch (reads part).mpr found
      simp [absent, Except.map]
  | ok part =>
      have found := (reads part).mp rfl
      rw [Except.map, sets part found, found, Except.ok.injEq]
      simp [eq_comm]

theorem isReadable_iff_of_truth (member : name ∈ ["fq_schema_naming", "default_response"]) :
    IsReadable name value ↔ (Text.spelledTruth? value).isSome = true := by
  constructor
  · intro readable
    exact readable.truth member
  · intro found
    rcases List.mem_pair.mp member with rfl | rfl
    · exact ⟨by decide, fun _ => found, fun same => absurd same (by decide)⟩
    · exact ⟨by decide, fun _ => found, fun same => absurd same (by decide)⟩

theorem isReadable_depth_iff : IsReadable "depth" value ↔ (Text.integer? value).isSome = true := by
  constructor
  · intro readable
    exact readable.integer rfl
  · intro found
    exact ⟨by decide, fun member => absurd member (by decide), fun _ => found⟩

theorem setParameter_given_of_truth (member : name ∈ ["fq_schema_naming", "default_response"]) :
    (given values).setParameter name value = .ok options ↔
      IsReadable name value ∧ options = given (Function.update values name (some value)) := by
  have readable : IsReadable name value ↔ (Text.spelledTruth? value).isSome = true :=
    isReadable_iff_of_truth member
  rcases List.mem_pair.mp member with rfl | rfl
  all_goals
    refine map_eq_ok_iff_of_read (fun part => readBool_eq_ok_iff) ?_ readable
    intro part found
    simp [given, found]

theorem setParameter_given_depth : (given values).setParameter "depth" value = .ok options ↔
    IsReadable "depth" value ∧ options = given (Function.update values "depth" (some value)) := by
  refine map_eq_ok_iff_of_read (fun part => readInt_eq_ok_iff) ?_ isReadable_depth_iff
  intro part found
  simp [given, found]

/-- Setting a parameter sets its value. -/
theorem setParameter_given_eq_ok_iff :
    (given values).setParameter name value = .ok options ↔
      IsReadable name value ∧ options = given (Function.update values name (some value)) := by
  by_cases known : name ∈ parameterNames
  · by_cases plain : name ∉ ["fq_schema_naming", "default_response", "depth"]
    · rw [setParameter_given_of_plain values value name known plain, Except.ok.injEq,
        and_iff_right (.of_plain known plain)]
      exact eq_comm
    · have read : name ∈ ["fq_schema_naming", "default_response"] ++ ["depth"] := not_not.mp plain
      rcases List.mem_append.mp read with truth | depth
      · exact setParameter_given_of_truth truth
      · obtain rfl := List.mem_singleton.mp depth
        exact setParameter_given_depth
  · rw [setParameter_of_unknown known]
    simp only [reduceCtorEq, false_iff]
    rintro ⟨readable, -⟩
    exact known readable.known

/-- Setting parameters with different names one after the other sets the value of each. -/
theorem foldlM_setParameter_eq_ok_iff {entries : Parameters}
    (distinct : (entries.map Prod.fst).Nodup) :
    (entries.foldlM (fun options (name, value) => options.setParameter name value)
        (given values)) = .ok options ↔
      (∀ entry ∈ entries, IsReadable entry.1 entry.2) ∧
        options = given fun name => (entries.get? name).or (values name) := by
  induction entries generalizing values with
  | nil =>
      change Except.ok (given values) = .ok options ↔ _
      simp [eq_comm]
  | cons entry rest ih =>
      obtain ⟨name, value⟩ := entry
      obtain ⟨fresh, later⟩ := List.nodup_cons.mp distinct
      have overlaid : (fun other => (Parameters.get? rest other).or
          (Function.update values name (some value) other)) =
            fun other => (Parameters.get? ((name, value) :: rest) other).or (values other) := by
        funext other
        rw [Parameters.get?_cons, Function.update_apply]
        by_cases same : other = name
        · have absent : Parameters.get? rest other = none := by
            rw [Parameters.get?, List.lookup_eq_none_iff]
            intro entry member
            rw [bne_iff_ne]
            rintro rfl
            exact fresh (List.mem_map.mpr ⟨entry, member, same⟩)
          rw [if_pos same, if_pos same, absent]
          rfl
        · rw [if_neg same, if_neg same]
      rw [List.foldlM_cons, bind_eq_ok, List.forall_mem_cons, ← overlaid]
      constructor
      · rintro ⟨next, first, others⟩
        obtain ⟨readable, rfl⟩ := setParameter_given_eq_ok_iff.mp first
        obtain ⟨all, same⟩ := (ih later).mp others
        exact ⟨⟨readable, all⟩, same⟩
      · rintro ⟨⟨readable, all⟩, same⟩
        exact ⟨_, setParameter_given_eq_ok_iff.mpr ⟨readable, rfl⟩, (ih later).mpr ⟨all, same⟩⟩

theorem ofParameters_eq_ok_iff {entries : Parameters} (distinct : (entries.map Prod.fst).Nodup) :
    ofParameters entries = .ok options ↔
      (∀ entry ∈ entries, IsReadable entry.1 entry.2) ∧ options = given entries.get? := by
  have unset : ({} : Options) = given fun _ => none := rfl
  unfold ofParameters
  rw [unset, foldlM_setParameter_eq_ok_iff distinct]
  simp only [Option.or_none]

/-! ## Defaults and checks -/

/-- The options that values under the names of parameters decide. -/
def decided (values : String → Option String) : Options where
  version := some ((values "version").getD "1.0.0")
  title := some ((values "title").getD "API")
  description := some ((values "description").getD "Generated API")
  naming := some ((values "naming").getD "proto")
  qualifiedNames := some (((values "fq_schema_naming").bind Text.spelledTruth?).getD false)
  enumStyle := some ((values "enum_type").getD "string")
  depth := some (((values "depth").bind Text.integer?).getD 2)
  defaultResponse := some (((values "default_response").bind Text.spelledTruth?).getD true)
  outputMode := some ((values "output_mode").getD "merged")
  format := some ((values "format").getD "yaml")
  pathPrefix := some ((values "path_prefix").getD "")
  services := some (((values "services").map namesIn).getD [])
  base := values "base"

theorem orElse_some_eq_some_getD {α : Type} (part : Option α) (preset : α) :
    (part <|> some preset) = some (part.getD preset) := by
  cases part <;> rfl

theorem withDefaults_given : (given values).withDefaults = decided values := by
  simp only [withDefaults, merge, given, defaults, decided, orElse_some_eq_some_getD]
  cases values "base" <;> rfl

theorem checkWord_eq_ok_iff {allowed : List String} {word : Option String} :
    checkWord name allowed word = .ok () ↔ ∀ given ∈ word, given ∈ allowed := by
  unfold checkWord
  cases word with
  | none => simp
  | some word => by_cases inside : word ∈ allowed <;> simp [inside]

theorem depth_check_eq_ok_iff {depth : Option Int} :
    (if depth.any (· < 1) then throw .depthTooSmall else pure () : Except ConfigError Unit) =
      .ok () ↔ ∀ given ∈ depth, 1 ≤ given := by
  cases depth with
  | none => exact iff_of_true rfl fun _ member => (Option.not_mem_none _ member).elim
  | some depth =>
      rw [Option.any_some]
      by_cases small : depth < 1
      · rw [if_pos (decide_eq_true small)]
        refine iff_of_false (fun passed => nomatch passed) fun large => ?_
        exact absurd small (Int.not_lt.mpr (large depth rfl))
      · rw [if_neg (by simpa using small)]
        refine iff_of_true rfl ?_
        rintro _ ⟨⟩
        exact Int.not_lt.mp small

theorem bind_unit_eq_ok_iff {ε α : Type} {first : Except ε Unit} {next : Unit → Except ε α}
    {result : α} : (first >>= next) = .ok result ↔ first = .ok () ∧ next () = .ok result := by
  rw [bind_eq_ok]
  constructor
  · rintro ⟨⟨⟩, both⟩
    exact both
  · intro both
    exact ⟨(), both⟩

theorem validate_eq_ok_iff : options.validate = .ok () ↔
    options.version ≠ some "" ∧ (∀ word ∈ options.naming, word ∈ ["proto", "json"]) ∧
      (∀ word ∈ options.enumStyle, word ∈ ["string", "integer"]) ∧
      (∀ word ∈ options.outputMode, word ∈ ["merged", "source_relative"]) ∧
      (∀ word ∈ options.format, word ∈ ["yaml", "json"]) ∧
      ∀ depth ∈ options.depth, 1 ≤ depth := by
  unfold validate
  dsimp only
  split
  next missing =>
    refine iff_of_false ?_ fun valid => valid.1 missing
    intro passed
    exact nomatch passed
  next set =>
    simp only [bind_unit_eq_ok_iff, checkWord_eq_ok_iff]
    rw [depth_check_eq_ok_iff, and_iff_right set]
    exact Iff.rfl

/-- What holds of a preset value holds of the value that is decided if it holds of any other. -/
theorem forall_mem_some_getD_iff {α : Type} {part : Option α} {preset : α} {holds : α → Prop}
    (presets : holds preset) :
    (∀ value ∈ some (part.getD preset), holds value) ↔ ∀ value ∈ part, holds value := by
  cases part <;> simp [presets]

theorem validate_decided_eq_ok_iff : (decided values).validate = .ok () ↔
    values "version" ≠ some "" ∧ (∀ word ∈ values "naming", word ∈ ["proto", "json"]) ∧
      (∀ word ∈ values "enum_type", word ∈ ["string", "integer"]) ∧
      (∀ word ∈ values "output_mode", word ∈ ["merged", "source_relative"]) ∧
      (∀ word ∈ values "format", word ∈ ["yaml", "json"]) ∧
      ∀ depth ∈ (values "depth").bind Text.integer?, 1 ≤ depth := by
  have version : (decided values).version ≠ some "" ↔ values "version" ≠ some "" := by
    cases given : values "version" <;> simp [decided, given]
  rw [validate_eq_ok_iff, version]
  refine and_congr_right' (and_congr ?_ (and_congr ?_ (and_congr ?_ (and_congr ?_ ?_))))
  · exact forall_mem_some_getD_iff (by decide)
  · exact forall_mem_some_getD_iff (by decide)
  · exact forall_mem_some_getD_iff (by decide)
  · exact forall_mem_some_getD_iff (by decide)
  · exact forall_mem_some_getD_iff (by decide)

/-! ## Configurations -/

/-- The options that have the values of a configuration. -/
def ofConfig (config : Config) : Options where
  version := some config.version
  title := some config.title
  description := some config.description
  naming := some config.naming.word
  qualifiedNames := some config.qualifiedNames
  enumStyle := some config.enumStyle.word
  depth := some config.depth
  defaultResponse := some config.defaultResponse
  outputMode := some config.outputMode.word
  format := some config.format.word
  pathPrefix := some config.pathPrefix
  services := some config.services
  base := config.base

/-- The item that has a word is found. -/
theorem word_getD_find? {α : Type} {all : List α} {word : α → String} {name : String}
    (member : name ∈ all.map word) (preset : α) :
    word ((all.find? fun item => some name = some (word item)).getD preset) = name := by
  obtain ⟨item, inside, named⟩ := List.mem_map.mp member
  cases found : all.find? fun item => some name = some (word item) with
  | none =>
      have missing := List.find?_eq_none.mp found item inside
      exact (missing (decide_eq_true (congrArg some named.symm))).elim
  | some other =>
      have same := List.find?_some found
      rw [decide_eq_true_eq, Option.some.injEq] at same
      exact same.symm

/-- Options that pass the checks decide a configuration, which has their values. An empty name of a
base document is no name. -/
theorem exists_toConfig_given (valid : (decided values).validate = .ok ()) :
    ∃ config, (given values).toConfig = .ok config ∧
      ofConfig config = { decided values with base := (values "base").filter (· ≠ "") } := by
  obtain ⟨-, naming, enumStyle, outputMode, format, depth⟩ := validate_eq_ok_iff.mp valid
  have large := depth _ rfl
  have positive : 0 < (((values "depth").bind Text.integer?).getD 2).toNat := by omega
  unfold toConfig
  rw [withDefaults_given]
  dsimp only
  rw [valid]
  refine ⟨_, dif_pos positive, ?_⟩
  simp only [ofConfig, decided, Option.getD_some, Options.mk.injEq, true_and, and_true]
  refine ⟨?naming, ?enumStyle, ?depth, ?outputMode, ?format⟩
  case naming => exact congrArg some (word_getD_find? (naming _ rfl) _)
  case enumStyle => exact congrArg some (word_getD_find? (enumStyle _ rfl) _)
  case outputMode => exact congrArg some (word_getD_find? (outputMode _ rfl) _)
  case format => exact congrArg some (word_getD_find? (format _ rfl) _)
  case depth => rw [Int.toNat_of_nonneg (by omega)]

theorem validate_of_toConfig {config : Config} (made : (given values).toConfig = .ok config) :
    (decided values).validate = .ok () := by
  unfold toConfig at made
  rw [withDefaults_given] at made
  obtain ⟨⟨⟩, valid, -⟩ := bind_eq_ok.mp made
  exact valid

/-- Only what is said of the parameters that set options matters. -/
theorem given_congr {others : String → Option String}
    (same : ∀ name ∈ parameterNames, values name = others name) : given values = given others := by
  simp only [parameterNames, List.forall_mem_cons] at same
  simp only [given, same]

end Options

/-! ## The parameter of a run -/

namespace Parameters

/-- Entries decide a configuration: all keys are known, and the last values of keys can be read and
are allowed. The key for the notices is not looked at. -/
structure Acceptable (entries : Parameters) : Prop where
  known : ∀ entry ∈ entries, entry.1 = thresholdParameter ∨ entry.1 ∈ Options.parameterNames
  version : entries.last? "version" ≠ some ""
  naming : ∀ word ∈ entries.last? "naming", word ∈ ["proto", "json"]
  qualifiedNames : ∀ word ∈ entries.last? "fq_schema_naming",
    (Text.spelledTruth? word).isSome = true
  enumStyle : ∀ word ∈ entries.last? "enum_type", word ∈ ["string", "integer"]
  depth : ∀ word ∈ entries.last? "depth", ∃ depth, Text.integer? word = some depth ∧ 1 ≤ depth
  defaultResponse : ∀ word ∈ entries.last? "default_response",
    (Text.spelledTruth? word).isSome = true
  outputMode : ∀ word ∈ entries.last? "output_mode", word ∈ ["merged", "source_relative"]
  format : ∀ word ∈ entries.last? "format", word ∈ ["yaml", "json"]

variable {entries : Parameters} {text : String}

theorem acceptable_iff : entries.Acceptable ↔
    (∀ key value, key ≠ thresholdParameter → entries.last? key = some value →
      Options.IsReadable key value) ∧ (Options.decided entries.last?).validate = .ok () := by
  rw [Options.validate_decided_eq_ok_iff]
  constructor
  · intro accepted
    refine ⟨fun key value other found => ⟨?known, ?truth, ?integer⟩, accepted.version,
      accepted.naming, accepted.enumStyle, accepted.outputMode, accepted.format, ?depth⟩
    case known =>
      have given : entries.last? key ≠ none := by
        rw [found]
        exact Option.some_ne_none value
      obtain ⟨entry, member, rfl⟩ := last?_ne_none_iff.mp given
      exact (accepted.known entry member).resolve_left other
    case truth =>
      intro member
      rcases List.mem_pair.mp member with rfl | rfl
      · exact accepted.qualifiedNames value found
      · exact accepted.defaultResponse value found
    case integer =>
      rintro rfl
      obtain ⟨depth, read, -⟩ := accepted.depth value found
      rw [read]
      rfl
    case depth =>
      intro depth member
      obtain ⟨word, found, read⟩ := Option.bind_eq_some_iff.mp member
      obtain ⟨large, again, positive⟩ := accepted.depth word found
      rw [read, Option.some.injEq] at again
      exact again ▸ positive
  · rintro ⟨readable, version, naming, enumStyle, outputMode, format, depth⟩
    refine ⟨?known, version, naming, ?qualifiedNames, enumStyle, ?depth, ?defaultResponse,
      outputMode, format⟩
    case known =>
      intro entry member
      by_cases threshold : entry.1 = thresholdParameter
      · exact .inl threshold
      · have given := last?_ne_none_iff.mpr ⟨entry, member, rfl⟩
        obtain ⟨value, found⟩ := Option.ne_none_iff_exists'.mp given
        exact .inr (readable entry.1 value threshold found).known
    case qualifiedNames =>
      intro word found
      exact (readable _ word (by decide) found).truth (by decide)
    case defaultResponse =>
      intro word found
      exact (readable _ word (by decide) found).truth (by decide)
    case depth =>
      intro word found
      obtain ⟨number, read⟩ := Option.isSome_iff_exists.mp
        ((readable _ word (by decide) found).integer rfl)
      exact ⟨number, read, depth number (Option.bind_eq_some_iff.mpr ⟨word, found, read⟩)⟩

/-- The options that a text sets, if each of them can be read. -/
theorem ofParameters_parse_eq_ok_iff {options : Options} :
    Options.ofParameters ((parse text).without thresholdParameter) = .ok options ↔
      (∀ key value, key ≠ thresholdParameter → (written text).last? key = some value →
        Options.IsReadable key value) ∧ options = Options.given (written text).last? := by
  have distinct := nodup_keys_without (nodup_keys_parse text) thresholdParameter
  have found (key : String) : ((parse text).without thresholdParameter).get? key =
      if key = thresholdParameter then none else (written text).last? key := by
    rw [get?_without, get?_parse]
  have same : Options.given ((parse text).without thresholdParameter).get? =
      Options.given (written text).last? := by
    apply Options.given_congr
    intro name known
    rw [found, if_neg]
    rintro rfl
    exact absurd known (by decide)
  rw [Options.ofParameters_eq_ok_iff distinct, same]
  refine and_congr_left' ?_
  constructor
  · intro readable key value other given
    apply readable (key, value)
    rw [← get?_eq_some_iff distinct, found, if_neg other, given]
  · intro readable entry member
    obtain ⟨key, value⟩ := entry
    rw [← get?_eq_some_iff distinct, found] at member
    split at member
    · contradiction
    next other => exact readable key value other member

theorem exists_config_parse (acceptable : (written text).Acceptable) :
    ∃ config, (parse text).config = .ok config := by
  obtain ⟨readable, valid⟩ := acceptable_iff.mp acceptable
  obtain ⟨config, made, -⟩ := Options.exists_toConfig_given valid
  have read := ofParameters_parse_eq_ok_iff.mpr ⟨readable, rfl⟩
  exact ⟨config, bind_eq_ok.mpr ⟨_, read, made⟩⟩

theorem acceptable_of_config_parse {config : Config} (made : (parse text).config = .ok config) :
    (written text).Acceptable ∧ Options.ofConfig config =
      { Options.decided (written text).last? with
        base := ((written text).last? "base").filter (· ≠ "") } := by
  obtain ⟨options, read, decided⟩ := bind_eq_ok.mp made
  obtain ⟨readable, rfl⟩ := ofParameters_parse_eq_ok_iff.mp read
  have valid := Options.validate_of_toConfig decided
  obtain ⟨other, again, values⟩ := Options.exists_toConfig_given valid
  obtain rfl := Except.ok.inj (decided.symm.trans again)
  exact ⟨acceptable_iff.mpr ⟨readable, valid⟩, values⟩

/-- Without a configuration, every run fails for the same reason. -/
theorem generate_of_config_eq_error {parameters : Parameters} {error : ConfigError}
    (failed : parameters.config = .error error) (request : Request) (files : Files) :
    (request.generate parameters files).outcome = .error (.config error) := by
  unfold Request.generate
  rw [failed]
  rfl

/-- A text decides a configuration exactly if what it writes is acceptable; every run fails
otherwise. All options are what the last values of their keys say, or their defaults. -/
theorem config_parse (text : String) :
    ((∃ config, (parse text).config = .ok config) ↔ (written text).Acceptable) ∧
    (∀ options, Options.ofParameters ((parse text).without thresholdParameter) = .ok options →
      options.withDefaults = Options.decided (written text).last?) ∧
    (∀ config, (parse text).config = .ok config →
      Options.ofConfig config = { Options.decided (written text).last? with
        base := ((written text).last? "base").filter (· ≠ "") }) ∧
    (¬ (written text).Acceptable → ∃ error, (parse text).config = .error error ∧
      ∀ request files, (Request.generate request (parse text) files).outcome =
        .error (.config error)) := by
  refine ⟨⟨?_, exists_config_parse⟩, ?_, ?_, ?_⟩
  · intro ⟨config, made⟩
    exact (acceptable_of_config_parse made).1
  · intro options read
    obtain ⟨-, rfl⟩ := ofParameters_parse_eq_ok_iff.mp read
    exact Options.withDefaults_given
  · intro config made
    exact (acceptable_of_config_parse made).2
  · intro refused
    cases made : (parse text).config with
    | ok config => exact (refused (acceptable_of_config_parse made).1).elim
    | error error => exact ⟨error, rfl, generate_of_config_eq_error made⟩

example : ((parse " depth = 3 ,, log_level=debug,depth=1, title").config.toOption.map fun config =>
    (config.depth, config.title, config.version)) = some (1, "", "1.0.0") := by decide +kernel

end Parameters

end ServiceDoc
