import SchemaPack.Proofs.Canonical.Shrinking.Collapse

namespace SchemaPack

open Canonical

namespace Pruning

theorem inapplicable_plain :
    ∀ type ∈ InstanceType.all, ∀ family ∈ families,
      (∀ keyword ∈ ["type", "const", "enum", "anyOf"] ++ defaultsOf type,
        keyword ∉ Keyword.inapplicable type family.vocabularies) := by
  decide +kernel

theorem dropInapplicable_shrinks {type : InstanceType} {family : Family}
    (known : type ∈ InstanceType.all) (listed : family ∈ families) :
    (dropInapplicable type family).Shrinks := by
  intro node context tidy _ condition
  simp only [dropInapplicable, Bool.and_eq_true, beq_iff_eq] at condition
  have plain := inapplicable_plain type known family listed
  obtain ⟨name, inside, present⟩ := List.any_eq_true.mp condition.2
  refine ⟨tidy.eraseAll _, weight_eraseAll_lt tidy inside present ?_ ?_⟩
  · exact fun keyword typing => plain keyword (List.mem_append_left _ typing)
  · intro pinned declared keyword default
    have same : pinnedType? node = some pinned := by rw [pinnedType?, declared]
    cases same.symm.trans condition.1.2
    exact plain keyword (List.mem_append_right _ default)

theorem rules_shrink : ∀ rule ∈ rules, rule.Shrinks := by
  intro rule listed
  obtain ⟨type, known, listed⟩ := List.mem_flatMap.mp listed
  obtain ⟨family, chosen, rfl⟩ := List.mem_map.mp listed
  exact dropInapplicable_shrinks known (List.mem_filter.mp chosen).1

end Pruning

namespace Defaults

theorem allTypes_shrinks : allTypes.Shrinks := by
  intro node context tidy _ condition
  simp only [allTypes, Bool.and_eq_true, Bool.not_eq_true'] at condition ⊢
  obtain ⟨⟨_, object⟩, unconstrained⟩ := condition
  have absent : ∀ keyword ∈ typeConstraining, node.contains keyword = false := by
    intro keyword listed
    exact Bool.eq_false_iff.mpr (List.any_eq_false.mp unconstrained keyword listed)
  have untyped : node.get? "type" = none := by
    have missing := absent "type" (by decide)
    rwa [Json.contains_eq, Option.isSome_eq_false_iff, Option.isNone_iff_eq_none] at missing
  have undecided : isOpen node = true := by
    have constrains : ∀ keyword ∈ ["const", "enum", "anyOf"], keyword ∈ typeConstraining := by
      decide
    rw [isOpen, Bool.not_eq_true']
    refine List.any_eq_false.mpr ?_
    intro keyword listed
    rw [absent keyword (constrains keyword listed)]
    decide
  generalize every : (InstanceType.all.map fun type => Json.string type.name) = types
  have seven : types.length = 7 := by
    rw [← every]
    rfl
  have typed := Json.get?_insert_self node "type" (.array types) object
  have demands : demand (node.insert "type" (.array types)) ≤ demand node :=
    demand_le (.inl (node.get?_insert_ne _ (by decide))) (.inl (node.get?_insert_ne _ (by decide)))
  have lighter := (node.insert "type" (.array types)).total_mono (charge_mono demands)
  have added := @Json.total_insert_le (charge (demand node)) node tidy.distinct "type"
    (.array types)
  have one : charge (demand node) "type" (.array types) = 1 := by
    rw [charge_plain (by decide)]
    rfl
  refine ⟨tidy.insert (tidy_plain (by decide) _), ?_⟩
  rw [weight_object object, weight_object ((Json.isObject_insert _ _ _).trans object)]
  simp only [copies, bulk, potential, typed, untyped, undecided, if_true, seven]
  omega

theorem pendingDefaults_insert_lt {node : Json} {type : InstanceType} {keyword : String}
    (declared : node.declaredType? = some type) (written : keyword ∈ defaultsOf type)
    (not_type : keyword ≠ "type") (unlisted : node.containsAny ["enum", "const"] = false)
    (others : keyword ≠ "const" ∧ keyword ≠ "enum") (missing : node.get? keyword = none)
    (value : Json) :
    pendingDefaults (node.insert keyword value) < pendingDefaults node := by
  obtain ⟨_, typed, _⟩ := Json.get?_of_declaredType? declared
  have object := Json.isObject_of_get? typed
  have still : (node.insert keyword value).declaredType? = some type := by
    rw [Json.declaredType?, node.get?_insert_ne _ not_type, ← Json.declaredType?, declared]
  have same : ∀ name, keyword ≠ name →
      (node.insert keyword value).contains name = node.contains name := by
    intro name other
    rw [Json.contains_eq, Json.contains_eq, node.get?_insert_ne _ other]
  have still_unlisted : (node.insert keyword value).containsAny ["enum", "const"] = false := by
    simp only [Json.containsAny, List.any_cons, List.any_nil, same _ others.1, same _ others.2]
      at unlisted ⊢
    exact unlisted
  have fewer : (defaultsOf type).filter (!(node.insert keyword value).contains ·) =
      ((defaultsOf type).filter (!node.contains ·)).filter (· != keyword) := by
    rw [List.filter_filter]
    apply List.filter_congr
    intro name _
    by_cases here : keyword = name
    · subst here
      rw [Json.contains_of_get? (Json.get?_insert_self node keyword value object),
        bne_self_eq_false]
      rfl
    · rw [same name here, bne_iff_ne.mpr (Ne.symm here), Bool.true_and]
  have waiting : keyword ∈ (defaultsOf type).filter (!node.contains ·) := by
    refine List.mem_filter.mpr ⟨written, ?_⟩
    rw [Json.contains_eq, missing]
    rfl
  rw [pendingDefaults, pendingDefaults, unlisted, still_unlisted, still, declared]
  simp only [Bool.false_eq_true, if_false, Option.map_some, Option.getD_some, fewer]
  exact List.length_filter_lt_length_iff_exists.mpr
    ⟨keyword, waiting, by rw [bne_self_eq_false]; decide⟩

theorem demand_insert_empty {node value : Json} {keyword : String} (object : node.isObject = true)
    (missing : node.get? keyword = none) (not_dependent : keyword ≠ "dependentRequired")
    (empty : itemCount value = 0) : demand (node.insert keyword value) ≤ demand node := by
  by_cases required : keyword = "required"
  · subst required
    have new := Json.get?_insert_self node "required" value object
    have kept := node.get?_insert_ne value not_dependent
    simp only [demand, Json.share, new, missing, kept, Option.map_some, Option.map_none,
      Option.getD_some, Option.getD_none, empty]
    exact Nat.le_refl _
  · exact demand_le (.inl (node.get?_insert_ne _ required))
      (.inl (node.get?_insert_ne _ not_dependent))

theorem default_shrinks {name vocabulary keyword : String} {type : InstanceType} {value : Json}
    (written : keyword ∈ defaultsOf type)
    (others : keyword ≠ "type" ∧ keyword ≠ "const" ∧ keyword ≠ "enum" ∧ keyword ≠ "anyOf" ∧
      keyword ≠ "dependentRequired")
    (empty : itemCount value = 0) (tidy_value : Tidy (Keyword.roleOf keyword) value)
    (light : ∀ demand, charge demand keyword value < demand + 4) :
    (default name type vocabulary keyword value).Shrinks := by
  intro node context tidy _ condition
  simp only [default, Bool.and_eq_true, Bool.not_eq_true', Json.hasType, beq_iff_eq]
    at condition ⊢
  obtain ⟨⟨_, declared⟩, fresh⟩ := condition
  obtain ⟨not_type, not_const, not_enum, not_anyOf, not_dependent⟩ := others
  obtain ⟨spelled, typed, _⟩ := Json.get?_of_declaredType? declared
  have object := Json.isObject_of_get? typed
  have absent : node.contains keyword = false :=
    Bool.eq_false_iff.mpr (List.any_eq_false.mp fresh keyword (by simp))
  have unlisted : node.containsAny ["enum", "const"] = false := by
    refine List.any_eq_false.mpr ?_
    intro other listed
    refine List.any_eq_false.mp fresh other ?_
    rcases List.mem_cons.mp listed with rfl | listed
    · exact List.mem_cons_self
    · rw [List.mem_singleton.mp listed]
      simp
  have missing : node.get? keyword = none := by
    rwa [Json.contains_eq, Option.isSome_eq_false_iff, Option.isNone_iff_eq_none] at absent
  have still := node.get?_insert_ne value not_type
  have demands := demand_insert_empty object missing not_dependent empty
  have pending := pendingDefaults_insert_lt declared written not_type unlisted
    ⟨not_const, not_enum⟩ missing value
  refine ⟨tidy.insert tidy_value, weight_lt object ?_ ?_ ?_⟩
  · rw [Json.isObject_insert, object]
  · simp only [copies, still, typed]
    exact Nat.le_refl _
  -- The default counts for less than was set aside for it while it was pending.
  · have lighter := (node.insert keyword value).total_mono (charge_mono demands)
    have added := @Json.total_insert_le (charge (demand node)) node tidy.distinct keyword value
    have small := light (demand node)
    have fewer := Nat.mul_le_mul_right (demand node + 4) pending
    have smaller := Nat.mul_le_mul_left (pendingDefaults (node.insert keyword value))
      (Nat.add_le_add_right demands 4)
    rw [Nat.succ_mul] at fewer
    simp only [bulk, potential, still, typed]
    omega

theorem unitDefault_shrinks {name vocabulary keyword : String} {type : InstanceType}
    {value : Json} (written : keyword ∈ defaultsOf type)
    (others : keyword ≠ "type" ∧ keyword ≠ "const" ∧ keyword ≠ "enum" ∧ keyword ≠ "anyOf" ∧
      keyword ≠ "dependentRequired")
    (empty : itemCount value = 0) (plain : keyword ∈ Keyword.plain)
    (unit : ∀ demand, cost demand keyword value = 1) :
    (default name type vocabulary keyword value).Shrinks := by
  refine default_shrinks written others empty (tidy_plain plain _) ?_
  intro demand
  rw [charge_plain plain, unit]
  omega

theorem minProperties_shrinks : minProperties.Shrinks := by
  refine default_shrinks (by decide) (by decide) rfl (tidy_plain (by decide) _) ?_
  intro demand
  rw [charge_plain (by decide)]
  change 1 + ((demand : Int) + 1 - 0).toNat < demand + 4
  omega

theorem properties_shrinks : properties.Shrinks := by
  have map : Keyword.roleOf "properties" = .subschemaMap := by decide
  refine default_shrinks (by decide) (by decide) rfl ?_ ?_
  · rw [map]
    exact trivial
  · intro demand
    rw [charge, map]
    exact Nat.succ_lt_succ (Nat.succ_pos _)

theorem rules_shrink : ∀ rule ∈ rules, rule.Shrinks := by
  simp only [rules, List.forall_mem_cons]
  exact ⟨allTypes_shrinks,
    unitDefault_shrinks (by decide) (by decide) rfl (by decide) fun _ => rfl,
    unitDefault_shrinks (by decide) (by decide) rfl (by decide) fun _ => rfl,
    unitDefault_shrinks (by decide) (by decide) rfl (by decide) fun _ => rfl,
    minProperties_shrinks,
    unitDefault_shrinks (by decide) (by decide) rfl (by decide) fun _ => rfl,
    properties_shrinks, List.forall_mem_nil _⟩

end Defaults

/-- Every canonical rule keeps schemas tidy and leaves every schema it applies to lighter. -/
theorem canonicalRules_shrink : ∀ rule ∈ canonicalRules, rule.Shrinks := by
  intro rule listed
  simp only [canonicalRules, List.mem_append] at listed
  rcases listed with (((listed | listed) | listed) | listed) | listed
  · exact Redundancy.rules_shrink rule listed
  · exact Spelling.rules_shrink rule listed
  · exact Collapse.rules_shrink rule listed
  · exact Pruning.rules_shrink rule listed
  · exact Defaults.rules_shrink rule listed

end SchemaPack
