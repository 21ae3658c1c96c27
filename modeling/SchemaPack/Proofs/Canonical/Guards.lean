import SchemaPack.Proofs.Canonical.Collapse
import SchemaPack.Proofs.Encoding.Dialect

namespace SchemaPack

/-- The vocabularies on whose keywords canonical rules work. Of core they only use that `true` is
    a schema. -/
def Vocabulary.ruling : List String :=
  [applicator, unevaluated, validation, formatAnnotated, formatAsserted, content]

def Context.Unruled (context : Context) : Prop :=
  ∀ vocabulary ∈ Vocabulary.ruling, context.has vocabulary = false

namespace Context.Unruled

variable {context : Context} (unruled : context.Unruled)

include unruled

theorem applicator : context.has Vocabulary.applicator = false := unruled _ (by decide)

theorem validation : context.has Vocabulary.validation = false := unruled _ (by decide)

theorem content : context.has Vocabulary.content = false := unruled _ (by decide)

end Context.Unruled

theorem Pruning.vocabularies_mem_ruling :
    ∀ family ∈ families, ∀ vocabulary ∈ family.vocabularies, vocabulary ∈ Vocabulary.ruling := by
  decide

section Idle

variable {context : Context} (unruled : context.Unruled) (node : Json)

include unruled

theorem Redundancy.rules_idle : ∀ rule ∈ rules, rule.condition node context = false := by
  simp only [rules, List.forall_mem_cons, contentSchemaWithoutMediaType,
    maxContainsWithoutContains, minContainsWithoutContains, withoutCompanion,
    maxContainsAboveMaxItems, impliedUniqueItems, ifWithoutBranches, branchesWithoutIf,
    emptyPatternProperties, emptyDependentRequired, emptyObject, tighterMaximum, tighterMinimum,
    tighterBound, constWithType, enumWithType, idleAssertionsBesideEnum,
    unruled.applicator, unruled.validation, unruled.content, Bool.false_and, List.not_mem_nil,
    false_implies, implies_true, and_self]

theorem Spelling.rules_idle : ∀ rule ∈ rules, rule ≠ trueSchema →
    rule.condition node context = false := by
  simp only [rules, List.forall_mem_cons, constAsEnum, booleanAsEnum, nullAsConst, typeUnion,
    inclusiveMaximum, inclusiveMinimum, inclusiveBound, unruled.validation, Bool.false_and,
    List.not_mem_nil, false_implies, implies_true, and_self, ne_eq, not_true]

theorem Collapse.rules_idle : ∀ rule ∈ rules, rule.condition node context = false := by
  simp only [rules, List.forall_mem_cons, singleType, constInEnum, equalBounds, emptyString,
    emptyArray, emptyObject, requiredDependencies, requiredCount, duplicateAllOf, duplicateAnyOf,
    duplicateEnum, duplicateRequired, duplicates, integralMaximum, integralMinimum, integralBound,
    unruled.applicator, unruled.validation, Bool.false_and, List.not_mem_nil, false_implies,
    implies_true, and_self]

theorem Collapse.hazardous_safe : ∀ rule ∈ hazardous, rule.crashes node context = false := by
  simp only [hazardous, List.forall_mem_cons, equalBounds, requiredCount, duplicateAllOf,
    duplicateAnyOf, duplicateEnum, duplicateRequired, duplicates, unruled.applicator,
    unruled.validation, Bool.false_and, List.not_mem_nil, false_implies, implies_true, and_self]

theorem Pruning.rules_idle : ∀ rule ∈ rules, rule.condition node context = false := by
  intro rule listed
  obtain ⟨type, _, listed⟩ := List.mem_flatMap.mp listed
  obtain ⟨family, chosen, rfl⟩ := List.mem_map.mp listed
  have none : family.vocabularies.any context.has = false := by
    rw [List.any_eq_false]
    intro vocabulary listed
    have known := vocabularies_mem_ruling family (List.mem_filter.mp chosen).1 vocabulary listed
    rw [unruled vocabulary known]
    exact Bool.false_ne_true
  simp only [dropInapplicable, none, Bool.false_and]

theorem Defaults.rules_idle : ∀ rule ∈ rules, rule.condition node context = false := by
  simp only [rules, List.forall_mem_cons, allTypes, multipleOf, minItems, minLength,
    minProperties, required, properties, default, unruled.applicator, unruled.validation,
    Bool.false_and, List.not_mem_nil, false_implies, implies_true, and_self]

end Idle

theorem canonicalRules_idle_of_ne {context : Context} (unruled : context.Unruled) (node : Json) :
    ∀ rule ∈ canonicalRules, rule ≠ Spelling.trueSchema →
      rule.condition node context = false := by
  intro rule listed other
  simp only [canonicalRules, List.mem_append] at listed
  rcases listed with (((listed | listed) | listed) | listed) | listed
  · exact Redundancy.rules_idle unruled node rule listed
  · exact Spelling.rules_idle unruled node rule listed other
  · exact Collapse.rules_idle unruled node rule listed
  · exact Pruning.rules_idle unruled node rule listed
  · exact Defaults.rules_idle unruled node rule listed

theorem canonicalRules_safe_of_unruled {context : Context} (unruled : context.Unruled)
    (node : Json) : ∀ rule ∈ canonicalRules, rule.crashes node context = false := by
  intro rule listed
  rcases canonicalRules_safe rule listed with hazardous | safe
  · exact Collapse.hazardous_safe unruled node rule hazardous
  · exact safe node context

/-- Without the vocabularies that they work on, canonical rules match nothing but `true`. -/
theorem canonicalRules_idle {context : Context} (unruled : context.Unruled) {node : Json}
    (other : node ≠ .bool true) : Rule.Idle canonicalRules node context := by
  refine fun rule listed => ⟨?_, canonicalRules_safe_of_unruled unruled node rule listed⟩
  by_cases spelling : rule = Spelling.trueSchema
  · simp only [spelling, Spelling.trueSchema, beq_eq_false_iff_ne.mpr other, Bool.and_false]
  · exact canonicalRules_idle_of_ne unruled node rule listed spelling

theorem canonicalRules_idle_without_core {context : Context} (unruled : context.Unruled)
    (coreless : context.has Vocabulary.core = false) (node : Json) :
    Rule.Idle canonicalRules node context := by
  refine fun rule listed => ⟨?_, canonicalRules_safe_of_unruled unruled node rule listed⟩
  by_cases spelling : rule = Spelling.trueSchema
  · simp only [spelling, Spelling.trueSchema, coreless, Bool.false_and]
  · exact canonicalRules_idle_of_ne unruled node rule listed spelling

theorem canonicalRules_idle_document (pointer : Pointer) (encoding : Encoding) :
    Rule.Idle canonicalRules encoding.document (Encoding.context pointer) := by
  have unruled : (Encoding.context pointer).Unruled := by
    have inactive : ∀ vocabulary ∈ Vocabulary.ruling,
        [Vocabulary.core].contains vocabulary = false := by decide
    exact inactive
  refine canonicalRules_idle unruled ?_
  intro same
  cases same

end SchemaPack
