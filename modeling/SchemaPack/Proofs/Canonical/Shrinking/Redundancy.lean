import SchemaPack.Proofs.Canonical.Keeps
import SchemaPack.Proofs.Canonical.Weight
import SchemaPack.Proofs.Json.Precise

namespace SchemaPack

open Canonical

/-- A rule that keeps schemas tidy and leaves every schema it applies to lighter, if the schema is
    precise. -/
def Rule.Shrinks (rule : Rule) : Prop :=
  ∀ node context, Tidy .subschema node → node.Precise → rule.condition node context = true →
    Tidy .subschema (rule.transform node) ∧
      weight .subschema (rule.transform node) < weight .subschema node

namespace Redundancy

theorem shrinks_of_erase {node : Json} {names : List String} {name : String}
    (tidy : Tidy .subschema node) (listed : name ∈ names) (present : node.contains name = true)
    (plain : ∀ keyword ∈ names, keyword ∉ bearing) :
    Tidy .subschema (node.eraseAll names) ∧
      weight .subschema (node.eraseAll names) < weight .subschema node :=
  ⟨tidy.eraseAll names, weight_eraseAll_lt_of_plain tidy listed present plain⟩

theorem shrinks_of_erase_one {node : Json} {name : String} (tidy : Tidy .subschema node)
    (present : node.contains name = true) (plain : name ∉ bearing) :
    Tidy .subschema (node.erase name) ∧
      weight .subschema (node.erase name) < weight .subschema node := by
  refine @shrinks_of_erase node [name] name tidy List.mem_cons_self present ?_
  intro keyword listed
  rwa [List.mem_singleton.mp listed]

theorem withoutCompanion_shrinks {name vocabulary keyword companion : String}
    (plain : keyword ∉ bearing) :
    (withoutCompanion name vocabulary keyword companion).Shrinks := by
  intro node context tidy _ condition
  simp only [withoutCompanion, Bool.and_eq_true] at condition
  exact shrinks_of_erase_one tidy condition.1.2 plain

theorem maxContainsAboveMaxItems_shrinks : maxContainsAboveMaxItems.Shrinks := by
  intro node context tidy _ condition
  simp only [maxContainsAboveMaxItems, Bool.and_eq_true] at condition
  have present : node.contains "maxContains" = true := by
    cases found : node.numberAt? "maxContains" with
    | some value => exact Json.contains_of_get? (Json.get?_of_numberAt? found)
    | none =>
      rw [found] at condition
      cases condition.2
  exact shrinks_of_erase_one tidy present (by decide)

theorem impliedUniqueItems_shrinks : impliedUniqueItems.Shrinks := by
  intro node context tidy _ condition
  simp only [impliedUniqueItems, Bool.and_eq_true] at condition
  have present : node.contains "uniqueItems" = true := by
    cases found : node.get? "uniqueItems" with
    | some value => exact Json.contains_of_get? found
    | none =>
      rw [found] at condition
      cases condition.1.2
  exact shrinks_of_erase_one tidy present (by decide)

theorem ifWithoutBranches_shrinks : ifWithoutBranches.Shrinks := by
  intro node context tidy _ condition
  simp only [ifWithoutBranches, Bool.and_eq_true] at condition
  exact shrinks_of_erase_one tidy condition.1.2 (by decide)

theorem branchesWithoutIf_shrinks : branchesWithoutIf.Shrinks := by
  intro node context tidy _ condition
  simp only [branchesWithoutIf, Bool.and_eq_true] at condition
  obtain ⟨name, listed, present⟩ := List.any_eq_true.mp condition.2
  exact shrinks_of_erase tidy listed present (by decide)

theorem emptyObject_shrinks {name vocabulary keyword : String} (plain : keyword ∉ bearing) :
    (emptyObject name vocabulary keyword).Shrinks := by
  intro node context tidy _ condition
  simp only [emptyObject, Bool.and_eq_true] at condition
  have present : node.contains keyword = true := by
    cases found : node.objectAt? keyword with
    | some members => exact Json.contains_of_get? (Json.get?_of_objectAt? found)
    | none =>
      rw [found] at condition
      cases condition.2
  exact shrinks_of_erase_one tidy present plain

theorem tighterBound_shrinks {name inclusive exclusive : String} {tighter : Ordering}
    (plain : inclusive ∉ bearing ∧ exclusive ∉ bearing) :
    (tighterBound name inclusive exclusive tighter).Shrinks := by
  intro node context tidy _ condition
  simp only [tighterBound, Bool.and_eq_true] at condition ⊢
  obtain ⟨closed, lower⟩ := Option.isSome_iff_exists.mp condition.1.2
  obtain ⟨opened, upper⟩ := Option.isSome_iff_exists.mp condition.2
  have one := Json.contains_of_get? (Json.get?_of_numberAt? lower)
  have other := Json.contains_of_get? (Json.get?_of_numberAt? upper)
  simp only [lower, upper]
  split
  · exact shrinks_of_erase_one tidy other plain.2
  · exact shrinks_of_erase_one tidy one plain.1

theorem shrinks_of_untyped {node : Json} {type : InstanceType} {keyword : String} {value : Json}
    (tidy : Tidy .subschema node) (declared : node.declaredType? = some type)
    (listed : keyword ∈ ["const", "enum", "anyOf"]) (found : node.get? keyword = some value) :
    Tidy .subschema (node.erase "type") ∧
      weight .subschema (node.erase "type") < weight .subschema node := by
  obtain ⟨name, typed, _⟩ := Json.get?_of_declaredType? declared
  have other : "type" ≠ keyword := by
    rintro rfl
    revert listed
    decide
  refine ⟨tidy.erase "type", weight_lt_of_listed ?_ typed (node.get?_erase_self _) listed ?_ ?_ ?_⟩
  · rw [Json.isObject_erase, Json.isObject_of_get? typed]
  · rw [Json.contains_eq, node.get?_erase_ne other, found]
    rfl
  · exact demand_le (.inl (node.get?_erase_ne (by decide))) (.inl (node.get?_erase_ne (by decide)))
  · have dropped := @Json.total_erase (charge (demand node)) node tidy.distinct "type"
    omega

theorem constWithType_shrinks : constWithType.Shrinks := by
  intro node context tidy _ condition
  simp only [constWithType, Bool.and_eq_true] at condition
  have matched := condition.2
  split at matched
  · rename_i type value declared found
    exact shrinks_of_untyped tidy declared (by decide) found
  · cases matched

theorem enumWithType_shrinks : enumWithType.Shrinks := by
  intro node context tidy _ condition
  simp only [enumWithType, Bool.and_eq_true] at condition
  have matched := condition.2
  split at matched
  · rename_i type values declared found
    exact shrinks_of_untyped tidy declared (by decide) (Json.get?_of_arrayAt? found)
  · cases matched

theorem idleAssertionsBesideEnum_shrinks : idleAssertionsBesideEnum.Shrinks := by
  intro node context tidy _ condition
  simp only [idleAssertionsBesideEnum, Bool.and_eq_true, Bool.not_eq_true',
    List.isEmpty_eq_false_iff] at condition
  obtain ⟨name, rest, idle⟩ := List.exists_cons_of_ne_nil condition.2
  have first : name ∈ idleBesideEnum node := idle ▸ List.mem_cons_self
  obtain ⟨untyped, present, _⟩ := mem_idleBesideEnum first
  refine ⟨tidy.eraseAll _, weight_eraseAll_lt tidy first present ?_ ?_⟩
  · exact fun keyword typing => notMem_idleBesideEnum node typing
  · intro type declared
    obtain ⟨name, typed, _⟩ := Json.get?_of_declaredType? declared
    rw [Json.contains_of_get? typed] at untyped
    cases untyped

theorem rules_shrink : ∀ rule ∈ rules, rule.Shrinks := by
  simp only [rules, List.forall_mem_cons]
  exact ⟨withoutCompanion_shrinks (by decide), withoutCompanion_shrinks (by decide),
    withoutCompanion_shrinks (by decide), maxContainsAboveMaxItems_shrinks,
    impliedUniqueItems_shrinks, ifWithoutBranches_shrinks, branchesWithoutIf_shrinks,
    emptyObject_shrinks (by decide), emptyObject_shrinks (by decide),
    tighterBound_shrinks (by decide), tighterBound_shrinks (by decide), constWithType_shrinks,
    enumWithType_shrinks, idleAssertionsBesideEnum_shrinks, List.forall_mem_nil _⟩

end Redundancy

end SchemaPack
