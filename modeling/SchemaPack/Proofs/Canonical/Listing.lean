import SchemaPack.Proofs.Canonical.Collapse
import SchemaPack.Proofs.Canonical.References
import SchemaPack.Proofs.Canonical.Shrinking.Defaults
import SchemaPack.Proofs.Json.Deduplication
import SchemaPack.Proofs.Schema.Annotation

namespace SchemaPack

open Json

def Keyword.literal : List String := ["const", "enum"]

section Idle

variable {name : String} (literal : name ∈ Keyword.literal) (value : Json)

theorem get?_single (name : String) (value : Json) (other : String) :
    (object [(name, value)]).get? other = if name = other then some value else none := by
  rw [get?_object, Members.get?_cons, Members.get?_nil]

include literal

theorem get?_single_of_notMem {other : String} (apart : other ∉ Keyword.literal) :
    (object [(name, value)]).get? other = none := by
  rw [get?_single, if_neg]
  rintro rfl
  exact apart literal

theorem idleBesideEnum_single : Redundancy.idleBesideEnum (object [(name, value)]) = [] := by
  have general : ∀ keyword ∈ Keyword.all, keyword.name ∈ Keyword.literal →
      keyword.instanceTypes.isEmpty = true := by
    decide +kernel
  unfold Redundancy.idleBesideEnum
  cases listed : (object [(name, value)]).arrayAt? "enum" with
  | none => rfl
  | some values =>
    cases values with
    | nil => rfl
    | cons first rest =>
      dsimp only
      split
      · rfl
      · rw [List.map_eq_nil_iff, List.filter_eq_nil_iff]
        intro keyword known
        rw [Json.contains_eq, get?_single]
        by_cases here : name = keyword.name
        · subst here
          simp [Keyword.appliesTo, general keyword known literal]
        · simp [here]

variable (context : Context)

theorem Redundancy.rules_idle_single :
    ∀ rule ∈ rules, rule.condition (object [(name, value)]) context = false := by
  have blank := fun other => @get?_single_of_notMem name literal value other
  simp (disch := decide) [rules, contentSchemaWithoutMediaType,
    maxContainsWithoutContains, minContainsWithoutContains, withoutCompanion,
    maxContainsAboveMaxItems, impliedUniqueItems, ifWithoutBranches, branchesWithoutIf,
    emptyPatternProperties, emptyDependentRequired, emptyObject, tighterMaximum, tighterMinimum,
    tighterBound, constWithType, enumWithType, idleAssertionsBesideEnum,
    idleBesideEnum_single literal value, Json.numberAt?, Json.objectAt?, Json.declaredType?,
    Json.containsAny, Json.contains_eq, blank]

theorem Spelling.rules_idle_single : ∀ rule ∈ rules, rule ≠ constAsEnum →
    rule.condition (object [(name, value)]) context = false := by
  have blank := fun other => @get?_single_of_notMem name literal value other
  simp (disch := decide) [rules, trueSchema, booleanAsEnum, nullAsConst, typeUnion,
    inclusiveMaximum, inclusiveMinimum, inclusiveBound, Json.numberAt?, Json.arrayAt?,
    Json.hasType, Json.declaredType?, Json.contains_eq, blank]

theorem Collapse.constInEnum_idle_single :
    constInEnum.condition (object [(name, value)]) context = false := by
  simp only [Keyword.literal, List.mem_cons, List.not_mem_nil, or_false] at literal
  rcases literal with rfl | rfl <;> simp [constInEnum, Json.arrayAt?, get?_single]

theorem Collapse.rules_idle_single : ∀ rule ∈ rules, rule ≠ duplicateEnum →
    rule.condition (object [(name, value)]) context = false := by
  have blank := fun other => @get?_single_of_notMem name literal value other
  have both := constInEnum_idle_single literal value context
  simp (disch := decide) [rules, singleType, both, equalBounds, pinned?, emptyString, emptyArray,
    emptyObject, requiredDependencies, requiredCount, distinctRequired?, duplicateAllOf,
    duplicateAnyOf, duplicateRequired, duplicates, integralMaximum, integralMinimum,
    integralBound, Json.numberAt?, Json.arrayAt?, Json.hasType, Json.declaredType?, blank]

theorem Pruning.rules_idle_single :
    ∀ rule ∈ rules, rule.condition (object [(name, value)]) context = false := by
  intro rule listed
  obtain ⟨type, known, listed⟩ := List.mem_flatMap.mp listed
  obtain ⟨family, chosen, rfl⟩ := List.mem_map.mp listed
  have plain := inapplicable_plain type known family (List.mem_filter.mp chosen).1
  have written : ∀ name ∈ Keyword.literal, name ∈ ["type", "const", "enum", "anyOf"] := by decide
  have none : (object [(name, value)]).containsAny
      (Keyword.inapplicable type family.vocabularies) = false := by
    rw [Json.containsAny, List.any_eq_false]
    intro other inside
    rw [Json.contains_eq, get?_single, if_neg]
    · exact Bool.false_ne_true
    · rintro rfl
      exact plain name (List.mem_append_left _ (written name literal)) inside
  simp only [dropInapplicable, none, Bool.and_false]

theorem Defaults.rules_idle_single :
    ∀ rule ∈ rules, rule.condition (object [(name, value)]) context = false := by
  have blank := fun other => @get?_single_of_notMem name literal value other
  have constrained : (object [(name, value)]).containsAny typeConstraining = true := by
    have written : ∀ name ∈ Keyword.literal, name ∈ typeConstraining := by decide
    rw [Json.containsAny, List.any_eq_true]
    exact ⟨name, written name literal, by rw [Json.contains_eq, get?_single, if_pos rfl]; rfl⟩
  simp (disch := decide) [rules, allTypes, multipleOf, minItems, minLength, minProperties,
    required, properties, default, constrained, Json.hasType, Json.declaredType?, blank]

theorem canonicalRules_idle_single {rule : Rule} (listed : rule ∈ canonicalRules)
    (spelled : rule ≠ Spelling.constAsEnum) (repeated : rule ≠ Collapse.duplicateEnum) :
    rule.condition (object [(name, value)]) context = false := by
  simp only [canonicalRules, List.mem_append] at listed
  rcases listed with (((listed | listed) | listed) | listed) | listed
  · exact Redundancy.rules_idle_single literal value context rule listed
  · exact Spelling.rules_idle_single literal value context rule listed spelled
  · exact Collapse.rules_idle_single literal value context rule listed repeated
  · exact Pruning.rules_idle_single literal value context rule listed
  · exact Defaults.rules_idle_single literal value context rule listed

theorem Collapse.hazardous_uncrashed_single : ∀ rule ∈ hazardous, rule ≠ duplicateEnum →
    rule.crashes (object [(name, value)]) context = false := by
  have blank := fun other => @get?_single_of_notMem name literal value other
  have absent : ∀ rule keyword vocabulary, keyword ∉ Keyword.literal →
      (duplicates rule keyword vocabulary).crashes (object [(name, value)]) context = false := by
    intro rule keyword vocabulary apart
    simp [duplicates, Json.arrayAt?, blank keyword apart]
  simp only [hazardous, List.forall_mem_cons]
  refine ⟨fun _ => ?_, fun _ => ?_, fun _ => absent _ _ _ (by decide),
    fun _ => absent _ _ _ (by decide), fun other => absurd rfl other,
    fun _ => absent _ _ _ (by decide), List.forall_mem_nil _⟩
  · simp (disch := decide) [equalBounds, pinned?, Json.hasType, Json.declaredType?, blank]
  · simp (disch := decide) [requiredCount, Json.arrayAt?, blank]

theorem canonicalRules_uncrashed_single {rule : Rule} (listed : rule ∈ canonicalRules)
    (repeated : rule ≠ Collapse.duplicateEnum) :
    rule.crashes (object [(name, value)]) context = false := by
  rcases canonicalRules_safe rule listed with hazardous | safe
  · exact Collapse.hazardous_uncrashed_single literal value context rule hazardous repeated
  · exact safe _ context

end Idle

def Json.listing (values : List Json) : Json := object [("enum", array values)]

def Context.official (place : Pointer) : Context :=
  ⟨Dialect.draft202012, Dialect.draft202012, Vocabulary.official, place⟩

theorem Context.of_official (place : Pointer) {node : Json}
    (undeclared : Dialect.declared? node = none) :
    Context.of (Encoding.resolver Dialect.official) Dialect.draft202012 place node =
      .ok (Context.official place) :=
  Context.of_draft202012 place undeclared

section Listing

variable {values kept : List Json} (place : Pointer)

theorem constAsEnum_idle_listing (values : List Json) (context : Context) :
    Spelling.constAsEnum.condition (listing values) context = false := by
  simp [Spelling.constAsEnum, listing, Json.contains_eq, get?_single]

theorem arrayAt?_listing (values : List Json) : (listing values).arrayAt? "enum" = some values := by
  simp [listing, Json.arrayAt?, get?_single, Json.items?]

theorem duplicateEnum_listing (values : List Json) :
    Collapse.duplicateEnum.condition (listing values) (Context.official place) =
      (hasDuplicates values == some true) := by
  have active : (Context.official place).has Vocabulary.validation = true := rfl
  simp [Collapse.duplicateEnum, Collapse.duplicates, active, arrayAt?_listing]

theorem duplicateEnum_uncrashed_listing {found : Bool} (finds : hasDuplicates values = some found)
    (runs : found = true → (sortUnique values).isSome = true) :
    Collapse.duplicateEnum.crashes (listing values) (Context.official place) = false := by
  simp only [Collapse.duplicateEnum, Collapse.duplicates, arrayAt?_listing, Option.any_some, finds]
  cases found with
  | false => rfl
  | true =>
    rw [Option.isNone_eq_false_iff.mpr (runs rfl)]
    rfl

theorem duplicateEnum_transform (ran : sortUnique values = some kept) :
    Collapse.duplicateEnum.transform (listing values) = listing kept := by
  rw [Collapse.duplicateEnum, Collapse.duplicates_transform_eq (arrayAt?_listing values) ran]
  simp [listing, Json.insert, Members.insert, Members.contains]

theorem canonicalRules_idle_listing {rule : Rule} (listed : rule ∈ canonicalRules)
    (other : rule ≠ Collapse.duplicateEnum) :
    rule.condition (listing values) (Context.official place) = false ∧
      rule.crashes (listing values) (Context.official place) = false := by
  refine ⟨?_, canonicalRules_uncrashed_single (by decide) _ _ listed other⟩
  by_cases spelled : rule = Spelling.constAsEnum
  · subst spelled
    exact constAsEnum_idle_listing values _
  · exact canonicalRules_idle_single (by decide) _ _ listed spelled other

theorem idle_of_fresh (fresh : hasDuplicates values = some false) :
    Rule.Idle canonicalRules (listing values) (Context.official place) := by
  intro rule listed
  by_cases repeated : rule = Collapse.duplicateEnum
  · subst repeated
    refine ⟨?_, duplicateEnum_uncrashed_listing place fresh nofun⟩
    rw [duplicateEnum_listing, fresh]
    rfl
  · exact canonicalRules_idle_listing place listed repeated

theorem fresh_of_idle (idle : Rule.Idle canonicalRules (listing values) (Context.official place)) :
    hasDuplicates values = some false := by
  have listed : Collapse.duplicateEnum ∈ canonicalRules := by
    simp only [canonicalRules, Collapse.rules, List.mem_append, List.mem_cons, true_or, or_true]
  obtain ⟨fails, safe⟩ := idle Collapse.duplicateEnum listed
  rw [duplicateEnum_listing] at fails
  cases found : hasDuplicates values with
  | none =>
    have active : (Context.official place).has Vocabulary.validation = true := rfl
    simp [Collapse.duplicateEnum, Collapse.duplicates, active, arrayAt?_listing, found] at safe
  | some repeated =>
    cases repeated with
    | false => rfl
    | true =>
      rw [found] at fails
      cases fails

theorem first_of_repeated (repeated : hasDuplicates values = some true)
    (ran : sortUnique values = some kept) :
    Rule.first (listing values) (Context.official place) canonicalRules =
      pure (some Collapse.duplicateEnum) := by
  have uncrashed := duplicateEnum_uncrashed_listing place repeated fun _ => by rw [ran]; rfl
  refine Rule.first_of_only ?_ ?_ uncrashed fun rule => canonicalRules_idle_listing place
  · simp only [canonicalRules, Collapse.rules, List.mem_append, List.mem_cons, true_or, or_true]
  · rw [duplicateEnum_listing, repeated]
    rfl

end Listing

/-- A rule that gives a node back is applied to it for ever. -/
theorem Fresh.settle_endless {rules : List Rule} {resolver : Resolver} {inherited : String}
    {pointer : Pointer} {node : Json} {context : Context} {rule : Rule}
    (known : Context.of resolver inherited pointer node = .ok context)
    (first : Rule.first node context rules = pure (some rule)) (same : rule.transform node = node)
    (steps : Nat) :
    (settle rules resolver inherited pointer steps node).result = .error .outOfSteps := by
  induction steps with
  | zero => rfl
  | succ steps ih =>
    rw [settle, known, Traced.ofExcept_ok_bind, first, pure_bind,
      Traced.bind_ok (Traced.emit_result _)]
    dsimp only
    rw [same]
    exact ih

/-- Deduplication gives these values back, though it finds duplicates in them. -/
theorem canonicalize_undiminished (limit : Nat) :
    (canonicalize Dialect.official (some Dialect.draft202012) (listing undiminished)
      limit).result = .error .outOfSteps := by
  have root : Dialect.ofDocument (listing undiminished) (some Dialect.draft202012) =
      .ok Dialect.draft202012 := rfl
  rw [canonicalize, saturate_eq, root, Traced.ofExcept_ok_bind]
  rcases limit with _ | _ | steps
  · rfl
  · rfl
  · have endless := Fresh.settle_endless (Context.of_official .root rfl)
      (first_of_repeated .root hasDuplicates_undiminished sortUnique_undiminished)
      (duplicateEnum_transform sortUnique_undiminished) steps
    have visited : (Fresh.visit canonicalRules Keyword.find? (Encoding.resolver Dialect.official)
        (steps + 1) Dialect.draft202012 .root (listing undiminished)).result =
          .error .outOfSteps := by
      rw [Fresh.visit, Traced.bind_error endless]
    rw [Fresh.runPasses, Traced.bind_error visited]

end SchemaPack
