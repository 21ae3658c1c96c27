import SchemaPack.Proofs.Canonical.Guards
import SchemaPack.Proofs.Canonical.Inertness
import SchemaPack.Proofs.Rules.FixedPoint
import SchemaPack.Proofs.Schema.Annotation

namespace SchemaPack

/-- The keywords that a canonical schema of the type has, unless it lists its values. -/
def InstanceType.explicit : InstanceType → List String
  | .integer => ["multipleOf"]
  | .array => ["minItems"]
  | .string => ["minLength"]
  | .object => ["minProperties", "required", "properties"]
  | .null | .boolean | .number => []

def Vocabulary.typed : List String :=
  [applicator, validation, unevaluated, content, formatAnnotated, formatAsserted]

/-- What holds of a node that no canonical rule matches any more. -/
structure Json.IsCanonical (vocabularies : Vocabularies) (node : Json) : Prop where
  not_true : node ≠ .bool true
  constrained : node.isObject = true → node.containsAny ["type", "const", "enum", "$ref",
    "$dynamicRef", "anyOf", "allOf", "oneOf", "not", "if", "then", "else"] = true
  conditional : node.contains "if" = (node.contains "then" || node.contains "else")
  one_type : ∀ types, node.arrayAt? "type" = some types → types ≠ [] →
    ∃ type ∈ types, type.string? = none
  const_listed : node.contains "const" = true → node.contains "enum" = true
  const_apart : ∀ value values, node.get? "const" = some value →
    node.arrayAt? "enum" = some values → ∀ listed ∈ values, listed.equal value = false
  small_listed : node.hasType .boolean = true ∨ node.hasType .null = true →
    node.contains "enum" = true
  applicable : ∀ type, node.hasType type = true → ∀ keyword ∈ Keyword.all,
    keyword.vocabulary ∈ vocabularies → keyword.vocabulary ∈ Vocabulary.typed →
      node.contains keyword.name = true → keyword.appliesTo type = true
  enum_beyond : ∀ type values, node.hasType type = true → node.arrayAt? "enum" = some values →
    values ≠ [] → ∃ value ∈ values, value.isInstanceOf type = false
  explicit : ∀ type, node.hasType type = true → node.contains "enum" = false →
    ∀ keyword ∈ type.explicit, node.contains keyword = true
  one_maximum : node.numberAt? "maximum" = none ∨ node.numberAt? "exclusiveMaximum" = none
  one_minimum : node.numberAt? "minimum" = none ∨ node.numberAt? "exclusiveMinimum" = none
  integral : node.hasType .integer = true → ∀ keyword ∈ ["maximum", "minimum"],
    ∀ bound, node.numberAt? keyword = some bound → bound.isIntegral = true
  inclusive : node.hasType .integer = true → ∀ bounds ∈ [("maximum", "exclusiveMaximum", -1),
    ("minimum", "exclusiveMinimum", 1)], node.contains bounds.1 = false →
      ∀ bound, node.numberAt? bounds.2.1 = some bound →
        bound.isIntegral = true ∧ bound.offset? bounds.2.2 = none
  distinct : ∀ keyword ∈ ["allOf", "anyOf", "enum", "required"], ∀ values,
    node.arrayAt? keyword = some values → hasDuplicates values = some false

theorem Pruning.mem_inapplicable : ∀ type ∈ InstanceType.all, ∀ family ∈ families,
    ∀ keyword ∈ Keyword.all, keyword.vocabulary ∈ family.vocabularies →
      keyword.appliesTo type = false →
        keyword.name ∈ Keyword.inapplicable type family.vocabularies := by
  decide +kernel

theorem Defaults.exists_rule (type : InstanceType) : ∀ keyword ∈ type.explicit,
    ∃ name value, ∃ vocabulary ∈ [Vocabulary.applicator, Vocabulary.validation],
      default name type vocabulary keyword value ∈ rules := by
  have multipleOf : multipleOf ∈ rules := by simp [rules]
  have minItems : minItems ∈ rules := by simp [rules]
  have minLength : minLength ∈ rules := by simp [rules]
  have minProperties : minProperties ∈ rules := by simp [rules]
  have required : required ∈ rules := by simp [rules]
  have properties : properties ∈ rules := by simp [rules]
  cases type with
  | null | boolean | number => exact List.forall_mem_nil _
  | integer => exact List.forall_mem_singleton.mpr ⟨_, _, _, by simp, multipleOf⟩
  | array => exact List.forall_mem_singleton.mpr ⟨_, _, _, by simp, minItems⟩
  | string => exact List.forall_mem_singleton.mpr ⟨_, _, _, by simp, minLength⟩
  | object =>
    simp only [InstanceType.explicit, List.forall_mem_cons]
    exact ⟨⟨_, _, _, by simp, minProperties⟩, ⟨_, _, _, by simp, required⟩,
      ⟨_, _, _, by simp, properties⟩, List.forall_mem_nil _⟩

theorem mem_canonicalRules {rule : Rule} : rule ∈ canonicalRules ↔ rule ∈ Redundancy.rules ∨
    rule ∈ Spelling.rules ∨ rule ∈ Collapse.rules ∨ rule ∈ Pruning.rules ∨
      rule ∈ Defaults.rules := by
  simp only [canonicalRules, List.mem_append, or_assoc]

section Unmatched

variable {node : Json} {context : Context}
  (unmatched : ∀ rule ∈ canonicalRules, rule.condition node context = false)

include unmatched

theorem not_true_of_unmatched (core : context.has Vocabulary.core = true) :
    node ≠ .bool true := by
  have idle := unmatched Spelling.trueSchema
    (mem_canonicalRules.mpr (by simp [Spelling.rules]))
  simpa [Spelling.trueSchema, core] using idle

theorem conditional_of_unmatched (applied : context.has Vocabulary.applicator = true) :
    node.contains "if" = (node.contains "then" || node.contains "else") := by
  have alone := unmatched Redundancy.ifWithoutBranches
    (mem_canonicalRules.mpr (by simp [Redundancy.rules]))
  have branches := unmatched Redundancy.branchesWithoutIf
    (mem_canonicalRules.mpr (by simp [Redundancy.rules]))
  simp only [Redundancy.ifWithoutBranches, Redundancy.branchesWithoutIf, applied, Json.containsAny,
    List.any_cons, List.any_nil, Bool.or_false, Bool.true_and] at alone branches
  cases present : node.contains "if" with
  | true => simpa [present, or_iff_not_imp_left] using alone
  | false => simpa [present] using branches

variable (validated : context.has Vocabulary.validation = true)

include validated

theorem constrained_of_unmatched (object : node.isObject = true) :
    node.containsAny Defaults.typeConstraining = true := by
  have idle := unmatched Defaults.allTypes (mem_canonicalRules.mpr (by simp [Defaults.rules]))
  simpa [Defaults.allTypes, validated, object] using idle

theorem one_type_of_unmatched (applied : context.has Vocabulary.applicator = true)
    {types : List Json} (found : node.arrayAt? "type" = some types) (some_types : types ≠ []) :
    ∃ type ∈ types, type.string? = none := by
  have single := unmatched Collapse.singleType
    (mem_canonicalRules.mpr (by simp [Collapse.rules]))
  have several := unmatched Spelling.typeUnion
    (mem_canonicalRules.mpr (by simp [Spelling.rules]))
  simp only [Collapse.singleType, Spelling.typeUnion, validated, applied, found, Bool.true_and,
    Option.any_some] at single several
  cases types with
  | nil => exact absurd rfl some_types
  | cons type rest =>
    cases rest with
    | nil =>
      refine ⟨type, List.mem_cons_self, ?_⟩
      cases type with
      | string => cases single
      | null | bool | number | array | object => rfl
    | cons other rest =>
      have named : (type :: other :: rest).all (·.string?.isSome) = false := by
        simpa using several
      obtain ⟨type, listed, unnamed⟩ := List.all_eq_false.mp named
      exact ⟨type, listed, by simpa using unnamed⟩

theorem const_listed_of_unmatched (pinned : node.contains "const" = true) :
    node.contains "enum" = true := by
  have idle := unmatched Spelling.constAsEnum
    (mem_canonicalRules.mpr (by simp [Spelling.rules]))
  simpa [Spelling.constAsEnum, validated, pinned] using idle

theorem const_apart_of_unmatched {value : Json} {values : List Json}
    (pinned : node.get? "const" = some value) (found : node.arrayAt? "enum" = some values) :
    ∀ listed ∈ values, listed.equal value = false := by
  have idle := unmatched Collapse.constInEnum
    (mem_canonicalRules.mpr (by simp [Collapse.rules]))
  simpa [Collapse.constInEnum, validated, pinned, found] using idle

theorem listed_of_containsAny (listed : node.containsAny ["enum", "const"] = true) :
    node.contains "enum" = true := by
  simp only [Json.containsAny, List.any_cons, List.any_nil, Bool.or_false,
    Bool.or_eq_true] at listed
  exact listed.elim id (const_listed_of_unmatched unmatched validated)

theorem small_listed_of_unmatched
    (small : node.hasType .boolean = true ∨ node.hasType .null = true) :
    node.contains "enum" = true := by
  apply listed_of_containsAny unmatched validated
  rcases small with typed | typed
  · have idle := unmatched Spelling.booleanAsEnum
      (mem_canonicalRules.mpr (by simp [Spelling.rules]))
    simpa [Spelling.booleanAsEnum, validated, typed] using idle
  · have idle := unmatched Spelling.nullAsConst
      (mem_canonicalRules.mpr (by simp [Spelling.rules]))
    simpa [Spelling.nullAsConst, validated, typed] using idle

theorem enum_beyond_of_unmatched {type : InstanceType} {values : List Json}
    (typed : node.hasType type = true) (found : node.arrayAt? "enum" = some values)
    (some_values : values ≠ []) : ∃ value ∈ values, value.isInstanceOf type = false := by
  have idle := unmatched Redundancy.enumWithType
    (mem_canonicalRules.mpr (by simp [Redundancy.rules]))
  have declared : node.declaredType? = some type := beq_iff_eq.mp typed
  simpa [Redundancy.enumWithType, validated, declared, found, some_values] using idle

theorem explicit_of_unmatched {name vocabulary keyword : String} {type : InstanceType}
    {value : Json} (written : Defaults.default name type vocabulary keyword value ∈ Defaults.rules)
    (active : context.has vocabulary = true) (typed : node.hasType type = true)
    (unlisted : node.contains "enum" = false) : node.contains keyword = true := by
  have idle := unmatched _ (mem_canonicalRules.mpr (.inr (.inr (.inr (.inr written)))))
  have unpinned : node.contains "const" = false := by
    rw [← Bool.not_eq_true]
    intro pinned
    rw [const_listed_of_unmatched unmatched validated pinned] at unlisted
    cases unlisted
  simpa [Defaults.default, active, typed, Json.containsAny, unlisted, unpinned] using idle

theorem one_bound_of_unmatched {name inclusive exclusive : String} {tighter : Ordering}
    (listed : Redundancy.tighterBound name inclusive exclusive tighter ∈ Redundancy.rules) :
    node.numberAt? inclusive = none ∨ node.numberAt? exclusive = none := by
  have idle := unmatched _ (mem_canonicalRules.mpr (.inl listed))
  simp only [Redundancy.tighterBound, validated, Bool.true_and, Bool.and_eq_false_iff,
    Option.isSome_eq_false_iff, Option.isNone_iff_eq_none] at idle
  exact idle

theorem integral_of_unmatched {name keyword : String} {rounding : Rounding}
    (listed : Collapse.integralBound name keyword rounding ∈ Collapse.rules)
    (typed : node.hasType .integer = true) {bound : Number}
    (found : node.numberAt? keyword = some bound) : bound.isIntegral = true := by
  have idle := unmatched _ (mem_canonicalRules.mpr (.inr (.inr (.inl listed))))
  simpa [Collapse.integralBound, validated, typed, found] using idle

theorem inclusive_of_unmatched {name inclusive exclusive : String} {rounding : Rounding}
    {step : Int}
    (listed : Spelling.inclusiveBound name exclusive inclusive rounding step ∈ Spelling.rules)
    (typed : node.hasType .integer = true) (absent : node.contains inclusive = false)
    {bound : Number} (found : node.numberAt? exclusive = some bound) :
    bound.isIntegral = true ∧ bound.offset? step = none := by
  have idle := unmatched _ (mem_canonicalRules.mpr (.inr (.inl listed)))
  simp only [Spelling.inclusiveBound, validated, typed, absent, found, Bool.not_false,
    Bool.true_and, Option.bind_some, Spelling.inclusive?] at idle
  cases integral : bound.isIntegral with
  | true => simpa [integral] using idle
  | false => simp [integral] at idle

omit validated in
theorem applicable_of_unmatched {type : InstanceType} (typed : node.hasType type = true)
    {keyword : Keyword} (known : keyword ∈ Keyword.all)
    (active : context.has keyword.vocabulary = true) (among : keyword.vocabulary ∈ Vocabulary.typed)
    (present : node.contains keyword.name = true) : keyword.appliesTo type = true := by
  have families : ∀ vocabulary ∈ Vocabulary.typed, ∃ family ∈ Pruning.families,
      vocabulary ∈ family.vocabularies := by decide
  obtain ⟨family, listed, inside⟩ := families _ among
  cases applies : keyword.appliesTo type with
  | true => rfl
  | false =>
    have dropped := Pruning.mem_inapplicable type type.mem_all family listed keyword known inside
      applies
    have some_names : (Keyword.inapplicable type family.vocabularies).isEmpty = false := by
      rw [List.isEmpty_eq_false_iff]
      exact List.ne_nil_of_mem dropped
    have written : Pruning.dropInapplicable type family ∈ Pruning.rules :=
      List.mem_flatMap.mpr ⟨type, type.mem_all, List.mem_map.mpr
        ⟨family, List.mem_filter.mpr ⟨listed, by rw [some_names]; rfl⟩, rfl⟩⟩
    have idle := unmatched _ (mem_canonicalRules.mpr (.inr (.inr (.inr (.inl written)))))
    have declared : node.declaredType? = some type := beq_iff_eq.mp typed
    have guarded : family.vocabularies.any context.has = true :=
      List.any_eq_true.mpr ⟨_, inside, active⟩
    have pinned : Pruning.pinnedType? node = some type := by
      simp only [Pruning.pinnedType?, declared]
    have remains : node.containsAny (Keyword.inapplicable type family.vocabularies) = true :=
      List.any_eq_true.mpr ⟨_, dropped, present⟩
    simp [Pruning.dropInapplicable, guarded, pinned, remains] at idle

end Unmatched

variable {node : Json} {context : Context} (idle : Rule.Idle canonicalRules node context)

include idle

theorem distinct_of_idle {name keyword vocabulary : String}
    (listed : Collapse.duplicates name keyword vocabulary ∈ Collapse.rules)
    (active : context.has vocabulary = true) {values : List Json}
    (found : node.arrayAt? keyword = some values) : Json.hasDuplicates values = some false := by
  have apart := idle _ (mem_canonicalRules.mpr (.inr (.inr (.inl listed))))
  simp only [Collapse.duplicates, active, found, Bool.true_and, Option.any_some] at apart
  cases answer : Json.hasDuplicates values with
  | none =>
    rw [answer] at apart
    cases apart.2
  | some repeated =>
    rw [answer] at apart
    cases repeated with
    | true => cases apart.1
    | false => rfl

/-- What no canonical rule matches is canonical, where the vocabularies that rules ask for are
    active. -/
theorem isCanonical_of_idle (core : context.has Vocabulary.core = true)
    (applied : context.has Vocabulary.applicator = true)
    (validated : context.has Vocabulary.validation = true) :
    node.IsCanonical context.vocabularies where
  not_true := not_true_of_unmatched idle.unmatched core
  constrained := constrained_of_unmatched idle.unmatched validated
  conditional := conditional_of_unmatched idle.unmatched applied
  one_type _ := one_type_of_unmatched idle.unmatched validated applied
  const_listed := const_listed_of_unmatched idle.unmatched validated
  const_apart _ _ := const_apart_of_unmatched idle.unmatched validated
  small_listed := small_listed_of_unmatched idle.unmatched validated
  applicable _ typed _ known active :=
    applicable_of_unmatched idle.unmatched typed known (List.contains_iff_mem.mpr active)
  enum_beyond _ _ := enum_beyond_of_unmatched idle.unmatched validated
  explicit := by
    intro type typed unlisted keyword listed
    obtain ⟨name, value, vocabulary, guard, written⟩ := Defaults.exists_rule type keyword listed
    have active : context.has vocabulary = true := by
      simp only [List.mem_cons, List.not_mem_nil, or_false] at guard
      rcases guard with rfl | rfl
      · exact applied
      · exact validated
    exact explicit_of_unmatched idle.unmatched validated written active typed unlisted
  one_maximum := by
    have listed : Redundancy.tighterMaximum ∈ Redundancy.rules := by simp [Redundancy.rules]
    exact one_bound_of_unmatched idle.unmatched validated listed
  one_minimum := by
    have listed : Redundancy.tighterMinimum ∈ Redundancy.rules := by simp [Redundancy.rules]
    exact one_bound_of_unmatched idle.unmatched validated listed
  integral := by
    have maximum : Collapse.integralMaximum ∈ Collapse.rules := by simp [Collapse.rules]
    have minimum : Collapse.integralMinimum ∈ Collapse.rules := by simp [Collapse.rules]
    intro typed
    simp only [List.forall_mem_cons]
    exact ⟨fun _ => integral_of_unmatched idle.unmatched validated maximum typed,
      fun _ => integral_of_unmatched idle.unmatched validated minimum typed, List.forall_mem_nil _⟩
  inclusive := by
    have maximum : Spelling.inclusiveMaximum ∈ Spelling.rules := by simp [Spelling.rules]
    have minimum : Spelling.inclusiveMinimum ∈ Spelling.rules := by simp [Spelling.rules]
    intro typed
    simp only [List.forall_mem_cons]
    exact ⟨fun absent _ => inclusive_of_unmatched idle.unmatched validated maximum typed absent,
      fun absent _ => inclusive_of_unmatched idle.unmatched validated minimum typed absent,
      List.forall_mem_nil _⟩
  distinct := by
    have allOf : Collapse.duplicateAllOf ∈ Collapse.rules := by simp [Collapse.rules]
    have anyOf : Collapse.duplicateAnyOf ∈ Collapse.rules := by simp [Collapse.rules]
    have enum : Collapse.duplicateEnum ∈ Collapse.rules := by simp [Collapse.rules]
    have required : Collapse.duplicateRequired ∈ Collapse.rules := by simp [Collapse.rules]
    simp only [List.forall_mem_cons]
    exact ⟨fun _ => distinct_of_idle idle allOf applied,
      fun _ => distinct_of_idle idle anyOf applied,
      fun _ => distinct_of_idle idle enum validated,
      fun _ => distinct_of_idle idle required validated, List.forall_mem_nil _⟩

omit idle

/-- The shape of the canonical form. Every node of a canonical schema that can be reached through
    its subschemas and is in the official dialect is canonical. -/
theorem canonicalize_canonical (document result : Json) (limit : Nat)
    (h : (canonicalize Dialect.official (some Dialect.draft202012) document limit).result =
      .ok result) :
    ∃ dialect, Dialect.ofDocument document (some Dialect.draft202012) = .ok dialect ∧
      ∀ site, Relation.ReflTransGen
          (Subschema Keyword.find? (Encoding.resolver Dialect.official)) ⟨dialect, .root, result⟩
          site →
        Dialect.ofNode site.inherited site.node = Dialect.draft202012 →
          site.node.IsCanonical Vocabulary.official := by
  rw [canonicalize, saturate_eq] at h
  obtain ⟨dialect, root, h⟩ := Traced.ofExcept_bind_ok h
  obtain ⟨_, _, last⟩ := Fresh.runPasses_last h
  refine ⟨dialect, root, fun site reached official => ?_⟩
  obtain ⟨context, here, idle⟩ := (Fresh.visit_idle last).2 site reached
  obtain ⟨_, active, own, _⟩ := Context.of_eq_ok_iff.mp here
  rw [own, official, Dialect.vocabularies_draft202012] at active
  have same : Vocabulary.official = context.vocabularies := Except.ok.inj active
  have known : ∀ vocabulary ∈ Vocabulary.official, context.has vocabulary = true := by
    intro vocabulary listed
    rw [Context.has, ← same]
    exact List.contains_iff_mem.mpr listed
  rw [same]
  exact isCanonical_of_idle idle (known _ (by decide)) (known _ (by decide))
    (known _ (by decide))

theorem canonicalize_canonical_branch :
    let items := Json.object [("const", .number (.integer 1)),
      ("enum", .array [.number (.integer 2)])]
    let document := Json.object [("type", .array [.string "array", .string "boolean"]),
      ("items", items), ("if", .bool true)]
    let branch := Json.object [("type", .string "array"), ("items", items),
      ("minItems", .number .zero)]
    let result := Json.object [("anyOf",
      .array [branch, .object [("enum", .array [.bool false, .bool true])]])]
    (canonicalize Dialect.official (some Dialect.draft202012) document 60).result = .ok result ∧
      branch.IsCanonical Vocabulary.official := by
  intro items document branch result
  have given : (canonicalize Dialect.official (some Dialect.draft202012) document 60).result =
      .ok result := by decide +kernel
  have root : Dialect.ofDocument document (some Dialect.draft202012) = .ok Dialect.draft202012 := by
    decide +kernel
  obtain ⟨dialect, named, canonical⟩ := canonicalize_canonical document result 60 given
  cases named.symm.trans root
  have here : Context.of (Encoding.resolver Dialect.official) Dialect.draft202012 .root result =
      .ok ⟨Dialect.draft202012, Dialect.draft202012, Vocabulary.official, .root⟩ := by
    decide +kernel
  have role : (Keyword.find? Vocabulary.official "anyOf").map Keyword.role =
      some .subschemaList := by decide +kernel
  have inside : Subschema Keyword.find? (Encoding.resolver Dialect.official)
      ⟨Dialect.draft202012, .root, result⟩
      ⟨Dialect.draft202012, (Pointer.child .root "anyOf").item 0, branch⟩ :=
    .element here List.mem_cons_self role rfl
  exact ⟨given, canonical _ (.single inside) rfl⟩

end SchemaPack
