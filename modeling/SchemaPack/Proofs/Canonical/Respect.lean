import SchemaPack.Proofs.Canonical.Parallel
import SchemaPack.Proofs.Rules.Lockstep

namespace SchemaPack

open Json

theorem Json.get?_eq_none_of_isObject {node : Json} (other : node.isObject = false)
    (name : String) : node.get? name = none := by
  cases found : node.get? name with
  | none => rfl
  | some value => cases other.symm.trans (isObject_of_get? found)

section Blank

variable {node : Json} (blank : ∀ name, node.get? name = none) (context : Context)
include blank

theorem Redundancy.rules_blank : ∀ rule ∈ rules, rule.condition node context = false := by
  simp only [rules, List.forall_mem_cons, contentSchemaWithoutMediaType,
    maxContainsWithoutContains, minContainsWithoutContains, withoutCompanion,
    maxContainsAboveMaxItems, impliedUniqueItems, ifWithoutBranches, branchesWithoutIf,
    emptyPatternProperties, emptyDependentRequired, emptyObject, tighterMaximum, tighterMinimum,
    tighterBound, constWithType, enumWithType, idleAssertionsBesideEnum, idleBesideEnum,
    Json.numberAt?, Json.arrayAt?, Json.objectAt?, Json.declaredType?, Json.containsAny,
    Json.contains_eq, blank, Option.bind_none, Option.any_none, Option.isSome_none, List.any_cons,
    List.any_nil, Bool.or_false, Bool.and_false, Bool.false_and, List.isEmpty_nil, Bool.not_true,
    List.not_mem_nil, false_implies, implies_true, and_self]

theorem Spelling.rules_blank : ∀ rule ∈ rules, rule ≠ trueSchema →
    rule.condition node context = false := by
  simp [rules, constAsEnum, booleanAsEnum, nullAsConst, typeUnion, inclusiveMaximum,
    inclusiveMinimum, inclusiveBound, Json.numberAt?, Json.arrayAt?, Json.hasType,
    Json.declaredType?, Json.contains_eq, blank]

theorem Collapse.rules_blank : ∀ rule ∈ rules, rule.condition node context = false := by
  simp [rules, singleType, constInEnum, equalBounds, pinned?, emptyString, emptyArray, emptyObject,
    requiredDependencies, requiredCount, duplicateAllOf, duplicateAnyOf, duplicateEnum,
    duplicateRequired, duplicates, integralMaximum, integralMinimum, integralBound,
    Json.numberAt?, Json.arrayAt?, Json.hasType, Json.declaredType?, blank]

theorem Pruning.rules_blank : ∀ rule ∈ rules, rule.condition node context = false := by
  intro rule listed
  obtain ⟨type, _, listed⟩ := List.mem_flatMap.mp listed
  obtain ⟨family, _, rfl⟩ := List.mem_map.mp listed
  simp [dropInapplicable, Json.containsAny, Json.contains_eq, blank]

theorem Defaults.rules_blank (other : node.isObject = false) :
    ∀ rule ∈ rules, rule.condition node context = false := by
  simp [rules, allTypes, multipleOf, minItems, minLength, minProperties, required, properties,
    default, Json.hasType, Json.declaredType?, blank, other]

end Blank

theorem isObject_of_condition {rule : Rule} (listed : rule ∈ canonicalRules)
    (other : rule ≠ Spelling.trueSchema) {node : Json} {context : Context}
    (applies : rule.condition node context = true) : node.isObject = true := by
  cases kind : node.isObject with
  | true => rfl
  | false =>
    have blank := get?_eq_none_of_isObject kind
    have idle : rule.condition node context = false := by
      simp only [canonicalRules, List.mem_append] at listed
      rcases listed with (((listed | listed) | listed) | listed) | listed
      · exact Redundancy.rules_blank blank context rule listed
      · exact Spelling.rules_blank blank context rule listed other
      · exact Collapse.rules_blank blank context rule listed
      · exact Pruning.rules_blank blank context rule listed
      · exact Defaults.rules_blank blank context kind rule listed
    cases idle.symm.trans applies

theorem Json.Resemblance.coincide {D : Json → Json → Prop} (resemblance : Resemblance D)
    {x y : Json} (same : D x y) (read shown : List String) : Coincide D read shown x y where
  object := isSome_congr (resemblance.members? same)
  truth := resemblance.isTrue same
  read := fun name _ => resemblance.matches_of same name
  shown := fun name _ => rel_mono (resemblance.matches_of same name) (resemblance.shaped name)

section Respelling

variable {f : Number → Number} (respelling : Respelling f)

theorem respelled_iff_parallel {x y : Json} (object : x.isObject = true) :
    Respelled f x y ↔ Parallel (fun _ => Option.Rel (Respelled f)) x y := by
  constructor
  · intro same
    obtain ⟨members, rfl⟩ := eq_object_of_isObject object
    cases kindred_of_normal same.same with
    | object _ others =>
      exact ⟨rfl, rfl, (distinct_object.mp same.left).1, (distinct_object.mp same.right).1,
        same.get?⟩
  · intro parallel
    obtain ⟨members, rfl⟩ := eq_object_of_isObject parallel.left
    obtain ⟨others, rfl⟩ := eq_object_of_isObject parallel.right
    exact .object parallel.names parallel.others parallel.values

include respelling

theorem respelled_fair :
    Tolerance.Fair (Respelled f) fun _ => Option.Rel (Respelled f) where
  none := fun _ => .none
  data := fun _ _ _ _ => Iff.rfl
  shown := fun name _ _ _ same => rel_mono same ((resemblance_respelled respelling).shaped name)
  properties := .some (.refl (by decide))

theorem canonicalRules_mirror_respelled : ∀ rule ∈ canonicalRules,
    rule.Mirrors fun _ => Option.Rel (Respelled f) := by
  have fair := respelled_fair respelling
  have resemblance := resemblance_respelled respelling
  intro rule listed
  by_cases split : rule = Spelling.typeUnion
  · subst split
    apply Spelling.typeUnion_mirrors fair resemblance
    intro as bs branches
    refine .some (resemblance.array.mpr (branches.imp fun a b parallel => ?_))
    exact (respelled_iff_parallel parallel.left).mpr parallel
  by_cases all : rule = Collapse.duplicateAllOf
  · subst all
    exact Collapse.duplicates_mirrors resemblance fun _ _ => Iff.rfl
  by_cases any : rule = Collapse.duplicateAnyOf
  · subst any
    exact Collapse.duplicates_mirrors resemblance fun _ _ => Iff.rfl
  · exact canonicalRules_mirror fair resemblance rule listed ⟨split, all, any⟩

theorem canonicalRules_congr_respelled : ∀ rule ∈ canonicalRules, ∀ x y context,
    Respelled f x y → rule.condition x context = rule.condition y context := by
  have resemblance := resemblance_respelled respelling
  intro rule listed x y context same
  by_cases all : rule = Collapse.duplicateAllOf
  · subst all
    exact (Collapse.duplicates_footprint resemblance _ _ _).congr x y context context rfl
      (resemblance.coincide same _ _)
  by_cases any : rule = Collapse.duplicateAnyOf
  · subst any
    exact (Collapse.duplicates_footprint resemblance _ _ _).congr x y context context rfl
      (resemblance.coincide same _ _)
  · obtain ⟨_, footprint⟩ := canonicalRules_footprint resemblance rule listed all any
    exact footprint.congr x y context context rfl (resemblance.coincide same _ _)

theorem canonicalRules_crashes_respelled : ∀ rule ∈ canonicalRules, ∀ x y context,
    Respelled f x y → rule.crashes x context = rule.crashes y context := by
  have resemblance := resemblance_respelled respelling
  intro rule listed x y context same
  rcases canonicalRules_safe rule listed with hazardous | safe
  · obtain ⟨_, read, shown, footprint⟩ := Collapse.hazardous_footprint resemblance rule hazardous
    exact footprint.congr x y context context rfl (resemblance.coincide same read shown)
  · exact (safe x context).trans (safe y context).symm

/-- Canonical rules do not tell documents apart that differ in the order of members, or in how
    numbers are spelled that they take for the same. -/
theorem canonicalRules_respect : ∀ rule ∈ canonicalRules, rule.Respects (Respelled f) := by
  intro rule listed
  refine ⟨canonicalRules_congr_respelled respelling rule listed,
    canonicalRules_crashes_respelled respelling rule listed, ?_⟩
  intro x y context same applies
  by_cases truth : rule = Spelling.trueSchema
  · subst truth
    exact .refl (by decide : Json.emptyObject.Distinct)
  · have object := isObject_of_condition listed truth applies
    have parallel := canonicalRules_mirror_respelled respelling rule listed x y context
      ((respelled_iff_parallel object).mp same) applies
    exact (respelled_iff_parallel parallel.left).mpr parallel

end Respelling

end SchemaPack
