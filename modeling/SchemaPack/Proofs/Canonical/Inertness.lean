import SchemaPack.Proofs.Canonical.Footprint

namespace SchemaPack

/-- Objects that have the same values under every keyword that the vocabularies know. -/
def AgreeUnder (vocabularies : Vocabularies) (members others : Members) : Prop :=
  ∀ name, (Keyword.find? vocabularies name).isSome = true →
    Members.get? members name = Members.get? others name

/-- Keywords that the vocabularies do not know make no difference to a rule. -/
def Rule.Inert (rule : Rule) (vocabularies : Vocabularies) : Prop :=
  ∀ members others, AgreeUnder vocabularies members others →
    ∀ context : Context, context.vocabularies = vocabularies →
      rule.condition (.object members) context = rule.condition (.object others) context

/-- The rules that look at siblings from a vocabulary without asking whether it is active. -/
inductive Exposed (vocabularies : Vocabularies) : Rule → Prop where
  | contains (rule : Rule) :
    rule ∈ [Redundancy.maxContainsWithoutContains, Redundancy.minContainsWithoutContains,
      Collapse.emptyArray] →
    Vocabulary.validation ∈ vocabularies → Vocabulary.applicator ∉ vocabularies →
      Exposed vocabularies rule
  | type (type : InstanceType) (family : Pruning.Family) :
    family ∈ Pruning.families → Keyword.inapplicable type family.vocabularies ≠ [] →
    (∃ vocabulary ∈ family.vocabularies, vocabulary ∈ vocabularies) →
    Vocabulary.validation ∉ vocabularies →
      Exposed vocabularies (Pruning.dropInapplicable type family)
  | constraining :
    Vocabulary.validation ∈ vocabularies →
    Vocabulary.core ∉ vocabularies ∨ Vocabulary.applicator ∉ vocabularies →
      Exposed vocabularies Defaults.allTypes
  | properties :
    Vocabulary.applicator ∈ vocabularies → Vocabulary.validation ∉ vocabularies →
      Exposed vocabularies Defaults.properties

section Names

variable {vocabularies : Vocabularies} {name : String}

def Keyword.defines (vocabulary name : String) : Bool :=
  all.any fun keyword => keyword.name == name && keyword.vocabulary == vocabulary

theorem known_of_defines {vocabulary : String} (active : vocabulary ∈ vocabularies)
    (defined : Keyword.defines vocabulary name = true) :
    (Keyword.find? vocabularies name).isSome = true := by
  obtain ⟨keyword, listed, same⟩ := List.any_eq_true.mp defined
  rw [Bool.and_eq_true, beq_iff_eq, beq_iff_eq] at same
  rw [Keyword.find?, List.find?_isSome]
  refine ⟨keyword, listed, ?_⟩
  rw [same.1, same.2, beq_self_eq_true, Bool.true_and]
  exact List.elem_eq_true_of_mem active

theorem unknown_of_inactive
    (inactive : ∀ keyword ∈ Keyword.all, keyword.name = name →
      keyword.vocabulary ∉ vocabularies) : Keyword.find? vocabularies name = none := by
  rw [Keyword.find?, List.find?_eq_none]
  intro keyword listed found
  rw [Bool.and_eq_true, beq_iff_eq] at found
  exact inactive keyword listed found.1 (List.elem_iff.mp found.2)

theorem agreeUnder_append (members : Members) (value : Json)
    (unknown : Keyword.find? vocabularies name = none) :
    AgreeUnder vocabularies members (members ++ [(name, value)]) := by
  intro other known
  have different : name ≠ other := by
    rintro rfl
    rw [unknown] at known
    cases known
  rw [Members.get?_append, Members.get?_cons, if_neg different, Members.get?_nil, Option.or_none]

end Names

section Criteria

variable {rule : Rule} {guards read shown : List String} {vocabularies : Vocabularies}

/-- A rule is inert if it only goes by keywords that are known whenever it is on its guard. -/
theorem Rule.Footprint.inert (footprint : rule.Footprint Eq guards read shown)
    (known : ∀ guard ∈ guards, guard ∈ vocabularies →
      ∀ name ∈ read ++ shown, ∃ vocabulary ∈ vocabularies,
        Keyword.defines vocabulary name = true) : rule.Inert vocabularies := by
  rintro members others agree context rfl
  cases guarded : guards.any context.has with
  | false => rw [footprint.guarded _ _ guarded, footprint.guarded _ _ guarded]
  | true =>
    obtain ⟨guard, listed, active⟩ := List.any_eq_true.mp guarded
    have same : ∀ name ∈ read ++ shown, Members.get? members name = Members.get? others name := by
      intro name used
      obtain ⟨vocabulary, present, defined⟩ :=
        known guard listed (List.elem_iff.mp active) name used
      exact agree name (known_of_defines present defined)
    refine footprint.congr _ _ context context rfl ⟨rfl, rfl, ?_, ?_⟩
    · intro name used
      rw [Json.Matches, Json.get?_object, Json.get?_object, same name (List.mem_append_left _ used)]
      exact rel_refl fun _ _ => rfl
    · intro name used
      rw [Json.Matches, Json.get?_object, Json.get?_object,
        same name (List.mem_append_right _ used)]
      exact rel_refl fun _ _ _ => rfl

theorem Rule.Footprint.inert_of_own {guard : String}
    (footprint : rule.Footprint Eq [guard] read shown)
    (own : (read ++ shown).all (Keyword.defines guard) = true) : rule.Inert vocabularies := by
  apply footprint.inert
  intro other listed active name used
  rw [List.mem_singleton.mp listed] at active
  exact ⟨guard, active, List.all_eq_true.mp own name used⟩

theorem not_inert_of_append (members : Members) (name : String) (value : Json)
    (unknown : Keyword.find? vocabularies name = none)
    (differ : ∀ context : Context, context.vocabularies = vocabularies →
      rule.condition (.object members) context ≠
        rule.condition (.object (members ++ [(name, value)])) context) :
    ¬rule.Inert vocabularies := by
  intro inert
  let context : Context := ⟨"", "", vocabularies, .root⟩
  exact differ context rfl (inert _ _ (agreeUnder_append members value unknown) context rfl)

end Criteria

section Inert

variable {vocabularies : Vocabularies}

open Json Vocabulary

theorem Redundancy.rules_inert : ∀ rule ∈ rules, ¬Exposed vocabularies rule →
    rule.Inert vocabularies := by
  have companion : ∀ rule ∈ [maxContainsWithoutContains, minContainsWithoutContains],
      ∀ keyword, Keyword.defines validation keyword = true →
        rule.Footprint Eq [validation] [] [keyword, "contains"] →
          ¬Exposed vocabularies rule → rule.Inert vocabularies := by
    intro rule listed keyword own footprint unexposed
    by_cases active : applicator ∈ vocabularies
    · apply footprint.inert
      intro guard single validated name used
      rw [List.mem_singleton.mp single] at validated
      rw [List.nil_append, List.mem_cons, List.mem_singleton] at used
      rcases used with rfl | rfl
      · exact ⟨validation, validated, own⟩
      · exact ⟨applicator, active, by decide⟩
    · apply footprint.inert
      intro guard single validated
      rw [List.mem_singleton.mp single] at validated
      refine absurd (.contains rule ?_ validated active) unexposed
      exact List.mem_append_left [Collapse.emptyArray] listed
  simp only [rules, List.forall_mem_cons]
  refine ⟨?_, ?_, ?_, ?_, ?_, ?_, ?_, ?_, ?_, ?_, ?_, ?_, ?_, ?_, List.forall_mem_nil _⟩
  · exact fun _ => (withoutCompanion_footprint ..).inert_of_own (by decide)
  · exact companion _ (by simp) _ (by decide) (withoutCompanion_footprint ..)
  · exact companion _ (by simp) _ (by decide) (withoutCompanion_footprint ..)
  · exact fun _ => (maxContainsAboveMaxItems_footprint resemblance_eq).inert_of_own
      (by decide)
  · exact fun _ => (impliedUniqueItems_footprint resemblance_eq).inert_of_own (by decide)
  · exact fun _ => ifWithoutBranches_footprint.inert_of_own (by decide)
  · exact fun _ => branchesWithoutIf_footprint.inert_of_own (by decide)
  · exact fun _ => (emptyObject_footprint _ _ (by simp)).inert_of_own (by decide)
  · exact fun _ => (emptyObject_footprint _ _ (by simp)).inert_of_own (by decide)
  · exact fun _ => (tighterBound_footprint resemblance_eq ..).inert_of_own (by decide)
  · exact fun _ => (tighterBound_footprint resemblance_eq ..).inert_of_own (by decide)
  · exact fun _ => (constWithType_footprint resemblance_eq).inert_of_own (by decide)
  · exact fun _ => (enumWithType_footprint resemblance_eq).inert_of_own (by decide)
  · exact fun _ => (idleAssertionsBesideEnum_footprint resemblance_eq).inert_of_own
      (by decide)

theorem Spelling.rules_inert : ∀ rule ∈ rules, rule.Inert vocabularies := by
  simp only [rules, List.forall_mem_cons]
  refine ⟨?_, ?_, ?_, ?_, ?_, ?_, ?_, List.forall_mem_nil _⟩
  · exact trueSchema_footprint.inert_of_own (by decide)
  · exact constAsEnum_footprint.inert_of_own (by decide)
  · exact (booleanAsEnum_footprint resemblance_eq).inert_of_own (by decide)
  · exact (nullAsConst_footprint resemblance_eq).inert_of_own (by decide)
  · exact (typeUnion_footprint resemblance_eq).inert_of_own (by decide)
  · exact (inclusiveBound_footprint resemblance_eq ..).inert_of_own (by decide)
  · exact (inclusiveBound_footprint resemblance_eq ..).inert_of_own (by decide)

theorem Collapse.emptyArray_inert (unexposed : ¬Exposed vocabularies emptyArray) :
    emptyArray.Inert vocabularies := by
  have others : (["type", "maxItems", "minItems", "const", "enum"] : List String).all
      (Keyword.defines validation) = true := by decide
  apply (emptyArray_footprint resemblance_eq).inert
  intro guard single validated name used
  rw [List.mem_singleton.mp single] at validated
  by_cases contains : name = "contains"
  · subst contains
    by_cases active : applicator ∈ vocabularies
    · exact ⟨applicator, active, by decide⟩
    · exact absurd (.contains emptyArray (by simp) validated active) unexposed
  · refine ⟨validation, validated, List.all_eq_true.mp others name ?_⟩
    simp only [List.cons_append, List.nil_append, List.mem_cons, List.not_mem_nil, or_false,
      contains] at used ⊢
    exact used

theorem Collapse.rules_inert : ∀ rule ∈ rules, ¬Exposed vocabularies rule →
    rule.Inert vocabularies := by
  simp only [rules, List.forall_mem_cons]
  refine ⟨?_, ?_, ?_, ?_, emptyArray_inert, ?_, ?_, ?_, ?_, ?_, ?_, ?_, ?_, ?_,
    List.forall_mem_nil _⟩
  · exact fun _ => (singleType_footprint resemblance_eq).inert_of_own (by decide)
  · exact fun _ => (constInEnum_footprint resemblance_eq).inert_of_own (by decide)
  · exact fun _ => (equalBounds_footprint resemblance_eq).inert_of_own (by decide)
  · exact fun _ => (emptyString_footprint resemblance_eq).inert_of_own (by decide)
  · exact fun _ => (emptyObject_footprint resemblance_eq).inert_of_own (by decide)
  · exact fun _ => (requiredDependencies_footprint resemblance_eq).inert_of_own (by decide)
  · exact fun _ => (requiredCount_footprint resemblance_eq).inert_of_own (by decide)
  · exact fun _ => (duplicates_footprint resemblance_eq ..).inert_of_own (by decide)
  · exact fun _ => (duplicates_footprint resemblance_eq ..).inert_of_own (by decide)
  · exact fun _ => (duplicates_footprint resemblance_eq ..).inert_of_own (by decide)
  · exact fun _ => (duplicates_footprint resemblance_eq ..).inert_of_own (by decide)
  · exact fun _ => (integralBound_footprint resemblance_eq ..).inert_of_own (by decide)
  · exact fun _ => (integralBound_footprint resemblance_eq ..).inert_of_own (by decide)

theorem Pruning.inapplicable_defined : ∀ type ∈ InstanceType.all, ∀ family ∈ families,
    ∀ guard ∈ family.vocabularies, ∀ name ∈ Keyword.inapplicable type family.vocabularies,
      Keyword.defines guard name = true := by
  decide

theorem InstanceType.mem_all (type : InstanceType) : type ∈ all := by
  cases type <;> decide

theorem Pruning.rules_inert : ∀ rule ∈ rules, ¬Exposed vocabularies rule →
    rule.Inert vocabularies := by
  intro rule listed unexposed
  obtain ⟨type, _, listed⟩ := List.mem_flatMap.mp listed
  obtain ⟨family, chosen, rfl⟩ := List.mem_map.mp listed
  obtain ⟨known, some_names⟩ := List.mem_filter.mp chosen
  rw [Bool.not_eq_true', List.isEmpty_eq_false_iff] at some_names
  have types : (["type", "enum"] : List String).all (Keyword.defines validation) = true := by
    decide
  apply (dropInapplicable_footprint resemblance_eq type family).inert
  intro guard listed active name used
  rcases List.mem_append.mp used with pinning | dropped
  · refine ⟨validation, ?_, List.all_eq_true.mp types name pinning⟩
    by_contra inactive
    exact unexposed (.type type family known some_names ⟨guard, listed, active⟩ inactive)
  · have own := inapplicable_defined type type.mem_all family known guard listed name dropped
    exact ⟨guard, active, own⟩

theorem Defaults.rules_inert : ∀ rule ∈ rules, ¬Exposed vocabularies rule →
    rule.Inert vocabularies := by
  simp only [rules, List.forall_mem_cons]
  refine ⟨?_, ?_, ?_, ?_, ?_, ?_, ?_, List.forall_mem_nil _⟩
  · intro unexposed
    have each : typeConstraining.all (fun name => Keyword.defines validation name ||
        Keyword.defines core name || Keyword.defines applicator name) = true := by decide
    apply allTypes_footprint.inert
    intro guard single validated name used
    rw [List.mem_singleton.mp single] at validated
    have referring : core ∈ vocabularies := by
      by_contra inactive
      exact unexposed (.constraining validated (.inl inactive))
    have applying : applicator ∈ vocabularies := by
      by_contra inactive
      exact unexposed (.constraining validated (.inr inactive))
    have defined := List.all_eq_true.mp each name used
    simp only [Bool.or_eq_true] at defined
    rcases defined with (defined | defined) | defined
    · exact ⟨validation, validated, defined⟩
    · exact ⟨core, referring, defined⟩
    · exact ⟨applicator, applying, defined⟩
  · exact fun _ => (default_footprint resemblance_eq ..).inert_of_own (by decide)
  · exact fun _ => (default_footprint resemblance_eq ..).inert_of_own (by decide)
  · exact fun _ => (default_footprint resemblance_eq ..).inert_of_own (by decide)
  · exact fun _ => (default_footprint resemblance_eq ..).inert_of_own (by decide)
  · exact fun _ => (default_footprint resemblance_eq ..).inert_of_own (by decide)
  · intro unexposed
    have asserted : (["type", "enum", "const"] : List String).all (Keyword.defines validation) =
        true := by decide
    apply (default_footprint resemblance_eq ..).inert
    intro guard single applied name used
    rw [List.mem_singleton.mp single] at applied
    by_cases own : name = "properties"
    · subst own
      exact ⟨applicator, applied, by decide⟩
    · refine ⟨validation, ?_, List.all_eq_true.mp asserted name ?_⟩
      · by_contra inactive
        exact unexposed (.properties applied inactive)
      · simp only [List.cons_append, List.nil_append, List.mem_cons, List.not_mem_nil, or_false,
          own] at used ⊢
        exact used

end Inert

section Exposed

variable {vocabularies : Vocabularies}

open Vocabulary

theorem Context.has_of_mem {context : Context} {vocabulary : String}
    (active : vocabulary ∈ context.vocabularies) : context.has vocabulary = true :=
  List.elem_eq_true_of_mem active

theorem unknown_of_vocabulary {vocabulary name : String} (inactive : vocabulary ∉ vocabularies)
    (only : Keyword.all.all (fun keyword => keyword.name != name ||
      keyword.vocabulary == vocabulary) = true) : Keyword.find? vocabularies name = none := by
  apply unknown_of_inactive
  rintro keyword listed rfl
  have own := List.all_eq_true.mp only keyword listed
  rw [bne_self_eq_false, Bool.false_or, beq_iff_eq] at own
  rwa [own]

theorem contains_not_inert {rule : Rule}
    (listed : rule ∈ [Redundancy.maxContainsWithoutContains,
      Redundancy.minContainsWithoutContains, Collapse.emptyArray])
    (validated : validation ∈ vocabularies) (inactive : applicator ∉ vocabularies) :
    ¬rule.Inert vocabularies := by
  have unknown := @unknown_of_vocabulary _ _ "contains" inactive (by decide)
  simp only [List.mem_cons, List.not_mem_nil, or_false] at listed
  rcases listed with rfl | rfl | rfl
  · apply not_inert_of_append [("maxContains", .null)] _ .null unknown
    rintro context rfl
    simp only [Redundancy.maxContainsWithoutContains, Redundancy.withoutCompanion,
      Context.has_of_mem validated]
    decide
  · apply not_inert_of_append [("minContains", .null)] _ .null unknown
    rintro context rfl
    simp only [Redundancy.minContainsWithoutContains, Redundancy.withoutCompanion,
      Context.has_of_mem validated]
    decide
  · apply not_inert_of_append [("type", .string "array"), ("maxItems", .number .zero)] _ .null
      unknown
    rintro context rfl
    simp only [Collapse.emptyArray, Context.has_of_mem validated]
    decide

theorem type_not_inert {type : InstanceType} {family : Pruning.Family}
    (listed : family ∈ Pruning.families)
    (some_names : Keyword.inapplicable type family.vocabularies ≠ [])
    (active : ∃ vocabulary ∈ family.vocabularies, vocabulary ∈ vocabularies)
    (inactive : validation ∉ vocabularies) :
    ¬(Pruning.dropInapplicable type family).Inert vocabularies := by
  obtain ⟨vocabulary, used, active⟩ := active
  have unknown := @unknown_of_vocabulary _ _ "type" inactive (by decide)
  obtain ⟨name, rest, names⟩ := List.exists_cons_of_ne_nil some_names
  have dropped : name ∈ Keyword.inapplicable type family.vocabularies := by
    rw [names]
    exact List.mem_cons_self
  have other := (Pruning.keyword_of_mem_inapplicable type type.mem_all family listed name dropped).1
  simp only [List.mem_cons, List.not_mem_nil, or_false, not_or] at other
  apply not_inert_of_append [(name, .null)] "type" (.string type.name) unknown
  rintro context rfl
  have applied : family.vocabularies.any context.has = true :=
    List.any_eq_true.mpr ⟨vocabulary, used, Context.has_of_mem active⟩
  have open_type : Pruning.pinnedType? (.object [(name, .null)]) = none := by
    have no_type : (Json.object [(name, .null)]).get? "type" = none := by
      rw [Json.get?_object, Members.get?_cons, if_neg other.1, Members.get?_nil]
    have no_enum : (Json.object [(name, .null)]).get? "enum" = none := by
      rw [Json.get?_object, Members.get?_cons, if_neg other.2, Members.get?_nil]
    simp only [Pruning.pinnedType?, Json.declaredType?, no_type, Json.contains_eq, Json.arrayAt?,
      no_enum]
    rfl
  have pinned : Pruning.pinnedType? (.object ([(name, .null)] ++ [("type", .string type.name)])) =
      some type := by
    have declared : (Json.object ([(name, .null)] ++ [("type", .string type.name)])).get? "type" =
        some (.string type.name) := by
      rw [Json.get?_object, Members.get?_append, Members.get?_cons, if_neg other.1,
        Members.get?_nil, Option.none_or, Members.get?_cons, if_pos rfl]
    have named : InstanceType.ofName? type.name = some type := by
      cases type <;> decide
    simp only [Pruning.pinnedType?, Json.declaredType?, declared, Option.bind_some, Json.string?,
      named]
  have present : (Json.object ([(name, .null)] ++ [("type", .string type.name)])).containsAny
      (Keyword.inapplicable type family.vocabularies) = true := by
    refine List.any_eq_true.mpr ⟨name, dropped, ?_⟩
    rw [Json.contains_eq, Json.get?_object, Members.get?_append, Members.get?_cons, if_pos rfl]
    rfl
  simp only [Pruning.dropInapplicable, applied, open_type, pinned, present]
  simp

theorem constraining_not_inert (validated : validation ∈ vocabularies)
    (inactive : core ∉ vocabularies ∨ applicator ∉ vocabularies) :
    ¬Defaults.allTypes.Inert vocabularies := by
  rcases inactive with inactive | inactive
  · have unknown := @unknown_of_vocabulary _ _ "$ref" inactive (by decide)
    apply not_inert_of_append [] _ .null unknown
    rintro context rfl
    simp only [Defaults.allTypes, Context.has_of_mem validated]
    decide
  · have unknown := @unknown_of_vocabulary _ _ "anyOf" inactive (by decide)
    apply not_inert_of_append [] _ .null unknown
    rintro context rfl
    simp only [Defaults.allTypes, Context.has_of_mem validated]
    decide

theorem properties_not_inert (applied : applicator ∈ vocabularies)
    (inactive : validation ∉ vocabularies) : ¬Defaults.properties.Inert vocabularies := by
  have unknown := @unknown_of_vocabulary _ _ "type" inactive (by decide)
  apply not_inert_of_append [] _ (.string "object") unknown
  rintro context rfl
  simp only [Defaults.properties, Defaults.default, Context.has_of_mem applied]
  decide

end Exposed

/-- Under any vocabularies, unknown keywords make no difference to any rule but the exposed ones,
    and they do to those. -/
theorem canonicalRules_inert_iff : ∀ rule ∈ canonicalRules, ∀ vocabularies,
    rule.Inert vocabularies ↔ ¬Exposed vocabularies rule := by
  intro rule listed vocabularies
  constructor
  · intro inert exposed
    cases exposed with
    | contains _ among validated inactive => exact contains_not_inert among validated inactive inert
    | type _ _ known some_names active inactive =>
      exact type_not_inert known some_names active inactive inert
    | constraining validated inactive => exact constraining_not_inert validated inactive inert
    | properties applied inactive => exact properties_not_inert applied inactive inert
  · intro unexposed
    simp only [canonicalRules, List.mem_append] at listed
    rcases listed with (((listed | listed) | listed) | listed) | listed
    · exact Redundancy.rules_inert rule listed unexposed
    · exact Spelling.rules_inert rule listed
    · exact Collapse.rules_inert rule listed unexposed
    · exact Pruning.rules_inert rule listed unexposed
    · exact Defaults.rules_inert rule listed unexposed

/-- Splitting types asks for both vocabularies it works on, so it is inert whatever is active. -/
theorem canonicalRules_inert_union :
    Spelling.typeUnion ∈ canonicalRules ∧
      (Spelling.typeUnion.Inert [Vocabulary.applicator] ↔
        ¬Exposed [Vocabulary.applicator] Spelling.typeUnion) :=
  have listed := by simp [canonicalRules, Spelling.rules]
  ⟨listed, canonicalRules_inert_iff _ listed _⟩

/-- A `type` that means nothing without validation drops a keyword that applies. -/
theorem canonicalRules_not_inert :
    let vocabularies := [Vocabulary.core, Vocabulary.applicator]
    let family : Pruning.Family := ⟨"applicator", [Vocabulary.applicator]⟩
    let properties := ("properties", Json.object [("a", .bool false)])
    let context : Context :=
      ⟨"https://example.com/structural", Dialect.draft202012, vocabularies, .root⟩
    let rule := Pruning.dropInapplicable .string family
    rule ∈ canonicalRules ∧
      AgreeUnder vocabularies [("type", .string "string"), properties] [properties] ∧
        rule.condition (.object [("type", .string "string"), properties]) context = true ∧
          rule.condition (.object [properties]) context = false := by
  intro vocabularies family properties context rule
  refine ⟨?_, ?_, by decide +kernel, by decide +kernel⟩
  · have pruning : rule ∈ Pruning.rules := by
      refine List.mem_flatMap.mpr ⟨.string, by decide, List.mem_map_of_mem ?_⟩
      exact List.mem_filter.mpr ⟨List.mem_cons_self, by decide +kernel⟩
    simp only [canonicalRules, List.mem_append]
    exact .inl (.inr pruning)
  · intro name known
    have unknown := @unknown_of_vocabulary vocabularies Vocabulary.validation "type" (by decide)
      (by decide +kernel)
    have different : "type" ≠ name := by
      rintro rfl
      rw [unknown] at known
      cases known
    rw [Members.get?_cons, if_neg different]

end SchemaPack
