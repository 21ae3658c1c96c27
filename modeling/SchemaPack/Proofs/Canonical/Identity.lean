import SchemaPack.Proofs.Canonical.References

namespace SchemaPack

/-- The keywords that say what a schema is and how it is written: of those that stay on a node when
    its types are split, all that hold no subschemas. -/
def Keyword.identity : List String :=
  ["$schema", "$id", "$anchor", "$dynamicAnchor", "$vocabulary", "$comment"]

/-- The names that a schema gives to its definitions, if they are in an object. -/
def Json.definitionNames? (node : Json) : Option (List String) :=
  (node.objectAt? "$defs").map (·.map (·.1))

/-- An object that is the same schema as another one by all that identifies it. -/
structure Json.Identifies (document result : Json) : Prop where
  object : result.isObject = true
  keywords : ∀ name ∈ Keyword.identity, result.get? name = document.get? name
  definitions : result.definitionNames? = document.definitionNames?

theorem Keyword.identity_holds_none (vocabularies : Vocabularies) {name : String}
    (identity : name ∈ Keyword.identity) :
    ((Keyword.find? vocabularies name).map Keyword.role).all (!·.holdsSubschemas) = true := by
  have table : ∀ keyword ∈ Keyword.all, keyword.name ∈ Keyword.identity →
      keyword.role.holdsSubschemas = false := by
    decide +kernel
  apply Keyword.holds_none
  rintro keyword listed rfl
  exact table keyword listed identity

section Objects

variable (node : Json)

theorem Redundancy.rules_isObject :
    ∀ rule ∈ Redundancy.rules, (rule.transform node).isObject = node.isObject := by
  have tighter : ∀ name inclusive exclusive ordering,
      ((tighterBound name inclusive exclusive ordering).transform node).isObject =
        node.isObject := by
    intro name inclusive exclusive ordering
    simp only [tighterBound]
    split <;> simp
  simp [Redundancy.rules, contentSchemaWithoutMediaType, maxContainsWithoutContains,
    minContainsWithoutContains, withoutCompanion, maxContainsAboveMaxItems, impliedUniqueItems,
    ifWithoutBranches, branchesWithoutIf, emptyPatternProperties, emptyDependentRequired,
    emptyObject, tighterMaximum, tighterMinimum, tighter, constWithType, enumWithType,
    idleAssertionsBesideEnum]

theorem Spelling.isObject_enumOfConst : (enumOfConst node).isObject = node.isObject := by
  unfold enumOfConst
  split <;> simp

theorem Spelling.isObject_splitTypes : (splitTypes node).isObject = node.isObject := by
  unfold splitTypes
  split <;> rfl

theorem Spelling.rules_isObject : ∀ rule ∈ Spelling.rules, rule ≠ trueSchema →
    (rule.transform node).isObject = node.isObject := by
  have inclusive : ∀ name exclusive keyword rounding step,
      ((inclusiveBound name exclusive keyword rounding step).transform node).isObject =
        node.isObject := by
    intro name exclusive keyword rounding step
    simp only [inclusiveBound]
    split <;> simp
  simp [Spelling.rules, constAsEnum, isObject_enumOfConst, booleanAsEnum, nullAsConst, typeUnion,
    isObject_splitTypes, inclusiveMaximum, inclusiveMinimum, inclusive]

theorem Collapse.rules_isObject :
    ∀ rule ∈ Collapse.rules, (rule.transform node).isObject = node.isObject := by
  have single : (singleType.transform node).isObject = node.isObject := by
    simp only [singleType]
    split <;> simp
  have equal : (equalBounds.transform node).isObject = node.isObject := by
    simp only [equalBounds]
    split <;> simp
  have dependencies : (requiredDependencies.transform node).isObject = node.isObject := by
    simp only [requiredDependencies]
    split <;> simp
  have count : (requiredCount.transform node).isObject = node.isObject := by
    simp only [requiredCount]
    split <;> simp
  have distinct : ∀ name keyword vocabulary,
      ((duplicates name keyword vocabulary).transform node).isObject = node.isObject := by
    intro name keyword vocabulary
    simp only [duplicates]
    split <;> simp
  have integral : ∀ name keyword rounding,
      ((integralBound name keyword rounding).transform node).isObject = node.isObject := by
    intro name keyword rounding
    simp only [integralBound]
    split <;> simp
  simp [Collapse.rules, single, constInEnum, Spelling.isObject_enumOfConst, equal, emptyString,
    emptyArray, emptyObject, dependencies, count, duplicateAllOf, duplicateAnyOf, duplicateEnum,
    duplicateRequired, distinct, integralMaximum, integralMinimum, integral]

theorem Pruning.rules_isObject :
    ∀ rule ∈ Pruning.rules, (rule.transform node).isObject = node.isObject := by
  intro rule listed
  obtain ⟨type, _, listed⟩ := List.mem_flatMap.mp listed
  obtain ⟨family, _, rfl⟩ := List.mem_map.mp listed
  exact Json.isObject_eraseAll node _

theorem Defaults.rules_isObject :
    ∀ rule ∈ Defaults.rules, (rule.transform node).isObject = node.isObject := by
  simp [Defaults.rules, allTypes, multipleOf, minItems, minLength, minProperties, required,
    properties, default]

end Objects

theorem isObject_transform {rule : Rule} (listed : rule ∈ canonicalRules) {node : Json}
    {context : Context} (applies : rule.condition node context = true)
    (object : node.isObject = true) : (rule.transform node).isObject = true := by
  rw [← object]
  simp only [canonicalRules, List.mem_append] at listed
  rcases listed with (((listed | listed) | listed) | listed) | listed
  · exact Redundancy.rules_isObject node rule listed
  · refine Spelling.rules_isObject node rule listed ?_
    rintro rfl
    simp only [Spelling.trueSchema, Bool.and_eq_true, beq_iff_eq] at applies
    rw [applies.2] at object
    cases object
  · exact Collapse.rules_isObject node rule listed
  · exact Pruning.rules_isObject node rule listed
  · exact Defaults.rules_isObject node rule listed

namespace Json.Identifies

variable {document node : Json} (identifies : document.Identifies node)

include identifies

theorem transform {rule : Rule} (listed : rule ∈ canonicalRules) {context : Context}
    (applies : rule.condition node context = true) :
    document.Identifies (rule.transform node) where
  object := isObject_transform listed applies identifies.object
  keywords := by
    have stays : ∀ name ∈ Keyword.identity, name ∈ Spelling.wrapperKeywords := by decide
    intro name identity
    rw [canonicalRules_keep_wrapper (stays name identity) rule listed node context applies]
    exact identifies.keywords name identity
  definitions := by
    have kept : rule.Keeps "$defs" := canonicalRules_keep_wrapper (by decide) rule listed
    rw [definitionNames?, objectAt?, kept node context applies]
    exact identifies.definitions

end Json.Identifies

namespace Fresh

variable {vocabularies : Vocabularies} {pointer : Pointer} {events : List Event}

section Children

variable {visit : Pointer → Json → Traced Json}

theorem visitKeyword_definitions {value result : Json}
    (h : (visitKeyword Keyword.find? visit vocabularies pointer "$defs" value).Gives events
      result) :
    result.members?.map (·.map (·.1)) = value.members?.map (·.map (·.1)) := by
  have named : "$defs" ∈ Spelling.wrapperKeywords := by decide
  rcases visitKeyword_gives h with ⟨role, _⟩ | ⟨_, _, role, _⟩ |
    ⟨entries, results, _, rfl, rfl, visited⟩ | ⟨rfl, _⟩
  · cases (Spelling.role_of_wrapper named role rfl).2
  · cases (Spelling.role_of_wrapper named role rfl).2
  · have names : entries.map (·.1) = results.map (·.1) := by
      rw [← List.forall₂_eq_eq_eq, List.forall₂_map_left_iff, List.forall₂_map_right_iff]
      exact (visitEntries_gives visited).imp fun _ _ same => same.1
    exact congrArg some names.symm
  · rfl

theorem visitKeywords_identifies {document : Json} {members results : Members}
    (h : (visitKeywords Keyword.find? visit vocabularies pointer members).Gives events results)
    (identifies : document.Identifies (.object members)) :
    document.Identifies (.object results) where
  object := rfl
  keywords := by
    intro name identity
    have alike := visitKeywords_alike h.1
    rw [← identifies.keywords name identity]
    exact (alike.get?_of_holds_none (Keyword.identity_holds_none vocabularies identity)).symm
  definitions := by
    rw [← identifies.definitions]
    unfold Json.definitionNames? Json.objectAt?
    cases found : (Json.object members).get? "$defs" with
    | none =>
      have absent := (visitKeywords_alike h.1).contains "$defs"
      rw [Json.contains_eq, Json.contains_eq, found, Option.isSome_none,
        Option.isSome_eq_false_iff, Option.isNone_iff_eq_none] at absent
      rw [absent]
    | some value =>
      obtain ⟨result, there, given⟩ := Members.get?_of_forall₂
        (fun name value result =>
          (visitKeyword Keyword.find? visit vocabularies pointer name value).Gives events result)
        (visitKeywords_gives h) found
      have same : (Json.object results).get? "$defs" = some result := there
      rw [same]
      exact visitKeyword_definitions given

end Children

theorem visit_identifies {resolver : Resolver} {document node result : Json} {steps : Nat}
    {inherited : String}
    (h : (visit canonicalRules Keyword.find? resolver steps inherited pointer node).Gives events
      result)
    (identifies : document.Identifies node) : document.Identifies result := by
  obtain ⟨fewer, context, settled, _, first, later⟩ := visit_gives h
  have settles : document.Identifies settled :=
    (settle_gives document.Identifies
      (fun _ listed _ _ _ applies _ before => before.transform listed applies) first
      identifies).2
  rcases later with ⟨members, results, rfl, rfl, second⟩ | ⟨_, rfl⟩
  · exact visitKeywords_identifies second settles
  · exact settles

end Fresh

/-- Canonicalization keeps what identifies a schema: the keywords of its root that hold no
    subschemas and stay when types are split, with their values, and the names of its definitions
    in their order. -/
theorem canonicalize_identifies (resolver : Resolver) (default : Option String)
    (document result : Json) (limit : Nat) (object : document.isObject = true)
    (h : (canonicalize resolver default document limit).result = .ok result) :
    document.Identifies result := by
  have start : document.Identifies document := ⟨object, fun _ _ => rfl, rfl⟩
  rw [canonicalize, saturate_eq] at h
  obtain ⟨dialect, _, later⟩ := Traced.bind_result_ok h
  exact Fresh.runPasses_gives document.Identifies
    (fun _ _ _ visited before => Fresh.visit_identifies visited before)
    (.of_result later) start

/-- A root whose types are split, with definitions that are rewritten. -/
theorem canonicalize_identifies_union :
    let document := Json.object [
      ("type", .array [.string "object", .string "null"]),
      ("$id", .string "urn:pair"),
      ("$defs", .object [("second", .object [("type", .string "number")]),
        ("first", .object [("const", .null)])]),
      ("properties", .object [("a", .object [("$ref", .string "#/$defs/second")])]),
      ("$comment", .string "kept"),
      ("$vocabulary", .object [(Vocabulary.core, .bool true)]),
      ("$anchor", .string "here")]
    let branch := Json.object [("type", .string "object"),
      ("properties", .object [("a", .object [("$ref", .string "#/$defs/second")])]),
      ("minProperties", .number (.integer 0)), ("required", .array [])]
    let result := Json.object [
      ("$id", .string "urn:pair"),
      ("$defs", .object [("second", .object [("type", .string "number")]),
        ("first", .object [("enum", .array [.null])])]),
      ("$comment", .string "kept"),
      ("$vocabulary", .object [(Vocabulary.core, .bool true)]),
      ("$anchor", .string "here"),
      ("anyOf", .array [branch, .object [("enum", .array [.null])]])]
    document.isObject = true ∧
      (canonicalize Dialect.official (some Dialect.draft202012) document 60).result = .ok result ∧
        document.Identifies result := by
  intro document branch result
  have given : (canonicalize Dialect.official (some Dialect.draft202012) document 60).result =
      .ok result := by decide +kernel
  exact ⟨rfl, given, canonicalize_identifies _ _ document result 60 rfl given⟩

end SchemaPack
