import SchemaPack.Proofs.Canonical.Shrinking.Redundancy
import SchemaPack.Proofs.Number.Value

namespace SchemaPack

open Canonical

namespace Spelling

theorem trueSchema_shrinks : trueSchema.Shrinks := by
  intro node context tidy _ condition
  simp only [trueSchema, Bool.and_eq_true, beq_iff_eq] at condition
  rw [condition.2]
  exact ⟨tidy_object.mpr ⟨List.nodup_nil, List.forall_mem_nil _⟩, by decide⟩

theorem enumOfConst_shrinks {node value : Json} (tidy : Tidy .subschema node)
    (found : node.get? "const" = some value) :
    Tidy .subschema (enumOfConst node) ∧
      weight .subschema (enumOfConst node) < weight .subschema node := by
  have object := Json.isObject_of_get? found
  have erased := (Json.isObject_erase node "const").trans object
  simp only [enumOfConst, found]
  have kept : ∀ keyword, keyword ∉ ["const", "enum"] →
      ((node.erase "const").insert "enum" (.array [value])).get? keyword =
        node.get? keyword := by
    intro keyword other
    have same := enumOfConst_get? node other
    simpa only [enumOfConst, found] using same
  have listed : ((node.erase "const").insert "enum" (.array [value])).contains "enum" = true :=
    Json.contains_of_get? (Json.get?_insert_self _ _ _ erased)
  refine ⟨(tidy.erase "const").insert (tidy_plain (by decide) _), ?_⟩
  refine weight_lt_of_total object ?_ (kept "type" (by decide)) ?_ ?_ ?_ ?_
  · rw [Json.isObject_insert, erased]
  · rw [not_isOpen (by decide) listed]
    exact fun impossible => absurd impossible (by decide)
  · rw [pendingDefaults_of_listed (List.any_eq_true.mpr ⟨"enum", by decide, listed⟩)]
    exact Nat.zero_le _
  · exact demand_le (.inl (kept "required" (by decide)))
      (.inl (kept "dependentRequired" (by decide)))
  · have dropped := @Json.total_erase (charge (demand node)) node tidy.distinct "const"
    have added := @Json.total_insert_le (charge (demand node)) _
      (tidy.erase "const").distinct "enum" (.array [value])
    have four : node.share (charge (demand node)) "const" = 4 := by
      rw [Json.share_of_get? found, charge_plain (by decide)]
      rfl
    have two : charge (demand node) "enum" (.array [value]) = 2 := by
      rw [charge_plain (by decide)]
      rfl
    omega

theorem constAsEnum_shrinks : constAsEnum.Shrinks := by
  intro node context tidy _ condition
  simp only [constAsEnum, Bool.and_eq_true, Json.contains_eq] at condition
  obtain ⟨value, found⟩ := Option.isSome_iff_exists.mp condition.1.2
  exact enumOfConst_shrinks tidy found

theorem shrinks_of_spelled {node value : Json} {type : InstanceType} {keyword : String}
    (tidy : Tidy .subschema node) (declared : node.declaredType? = some type)
    (listed : keyword ∈ ["const", "enum"])
    (light : ∀ demand, charge demand keyword value < 40) :
    Tidy .subschema ((node.erase "type").insert keyword value) ∧
      weight .subschema ((node.erase "type").insert keyword value) < weight .subschema node := by
  obtain ⟨name, typed, _⟩ := Json.get?_of_declaredType? declared
  have object := Json.isObject_of_get? typed
  have erased := (Json.isObject_erase node "type").trans object
  have facts : keyword ∈ Keyword.plain ∧
      keyword ∈ ["const", "enum", "anyOf"] ∧ keyword ≠ "type" ∧ keyword ≠ "required" ∧
        keyword ≠ "dependentRequired" := by
    have all_facts : ∀ keyword ∈ ["const", "enum"],
        keyword ∈ Keyword.plain ∧
          keyword ∈ ["const", "enum", "anyOf"] ∧ keyword ≠ "type" ∧ keyword ≠ "required" ∧
            keyword ≠ "dependentRequired" := by decide
    exact all_facts keyword listed
  obtain ⟨plain, listed, not_type, not_required, not_dependent⟩ := facts
  refine ⟨(tidy.erase "type").insert (tidy_plain plain _), ?_⟩
  refine weight_lt_of_listed ?_ typed ?_ listed ?_ ?_ ?_
  · rw [Json.isObject_insert, erased]
  · rw [Json.get?_insert_ne _ _ not_type, Json.get?_erase_self]
  · exact Json.contains_of_get? (Json.get?_insert_self _ _ _ erased)
  · refine demand_le (.inl ?_) (.inl ?_)
    · rw [Json.get?_insert_ne _ _ not_required, Json.get?_erase_ne _ (by decide)]
    · rw [Json.get?_insert_ne _ _ not_dependent, Json.get?_erase_ne _ (by decide)]
  · have dropped := @Json.total_erase (charge (demand node)) node tidy.distinct "type"
    have added := @Json.total_insert_le (charge (demand node)) _
      (tidy.erase "type").distinct keyword value
    have small := light (demand node)
    omega

theorem booleanAsEnum_shrinks : booleanAsEnum.Shrinks := by
  intro node context tidy _ condition
  simp only [booleanAsEnum, Bool.and_eq_true, Json.hasType, beq_iff_eq] at condition
  refine shrinks_of_spelled tidy condition.1.2 (by decide) ?_
  intro demand
  rw [charge_plain (by decide)]
  exact (by decide : 1 + 2 < 40)

theorem nullAsConst_shrinks : nullAsConst.Shrinks := by
  intro node context tidy _ condition
  simp only [nullAsConst, Bool.and_eq_true, Json.hasType, beq_iff_eq] at condition
  refine shrinks_of_spelled tidy condition.1.2 (by decide) ?_
  intro demand
  rw [charge_plain (by decide)]
  exact (by decide : 4 < 40)

theorem inclusiveBound_shrinks {name exclusive inclusive : String} {rounding : Rounding}
    {step : Int} (plain : ∀ keyword ∈ "dependentRequired" :: bearing,
      keyword ≠ exclusive ∧ keyword ≠ inclusive)
    (heavy : ∀ demand value, 2 < charge demand exclusive value)
    (light : ∀ demand value, charge demand inclusive value ≤ 2)
    (written : inclusive ∈ Keyword.plain) :
    (inclusiveBound name exclusive inclusive rounding step).Shrinks := by
  intro node context tidy _ condition
  have kept : ∀ keyword ∈ "dependentRequired" :: bearing,
      ((inclusiveBound name exclusive inclusive rounding step).transform node).get? keyword =
        node.get? keyword :=
    fun keyword inside => inclusiveBound_keeps (plain keyword inside) node context condition
  simp only [inclusiveBound, Bool.and_eq_true] at condition kept ⊢
  obtain ⟨bound, given⟩ := Option.isSome_iff_exists.mp condition.2
  obtain ⟨value, found, _⟩ := Option.bind_eq_some_iff.mp given
  have present := Json.get?_of_numberAt? found
  have object := Json.isObject_of_get? present
  simp only [given] at kept ⊢
  refine ⟨(tidy.erase exclusive).insert (tidy_plain written _), ?_⟩
  refine weight_lt_of_plain object ?_ kept ?_
  · rw [Json.isObject_insert, Json.isObject_erase, object]
  · have dropped := @Json.total_erase (charge (demand node)) node tidy.distinct exclusive
    have added := @Json.total_insert_le (charge (demand node)) _
      (tidy.erase exclusive).distinct inclusive (.number bound)
    have more := heavy (demand node) (.number value)
    have less := light (demand node) (.number bound)
    rw [Json.share_of_get? present] at dropped
    omega

theorem branch_tidy {members : Members} (tidy : Tidy .subschema (.object members)) (type : Json) :
    Tidy .subschema (branch members type) := by
  obtain ⟨distinct, inside⟩ := tidy_object.mp tidy
  refine tidy_object.mpr ⟨branch_nodup distinct type, List.forall_mem_cons.mpr ⟨?_, ?_⟩⟩
  · exact @tidy_plain "type" (by decide) type
  · exact fun entry member => inside entry (List.mem_filter.mp member).1

theorem branch_weight_le (members : Members) (name : String) :
    weight .subschema (branch members (.string name)) ≤
      42 + 3 * (demand (.object members) + 4) +
        Members.total (charge (demand (.object members)))
          (members.filter fun entry => moves entry.1) := by
  have required := branch_get? members (.string name) (by decide : moves "required" = true)
  have dependent :=
    branch_get? members (.string name) (by decide : moves "dependentRequired" = true)
  have same : demand (branch members (.string name)) = demand (.object members) := by
    simp only [demand, Json.share, required, dependent]
  have typed : (branch members (.string name)).get? "type" = some (.string name) := by
    rw [branch_eq, Json.get?_object, Members.get?_cons, if_pos rfl]
  have single : copies (branch members (.string name)) = 1 := by rw [copies, typed]
  have few := Nat.mul_le_mul_right (demand (.object members) + 4)
    (pendingDefaults_le (branch members (.string name)))
  have one : charge (demand (.object members)) "type" (.string name) = 1 := by
    rw [charge_plain (by decide)]
    rfl
  have split : (branch members (.string name)).total (charge (demand (.object members))) =
      1 + Members.total (charge (demand (.object members)))
        (members.filter fun entry => moves entry.1) := by
    rw [← one]
    exact Members.total_cons _ _
  rw [weight_object rfl, single, bulk, potential, typed, same, split]
  dsimp only
  omega

theorem roleOf_anyOf : Keyword.roleOf "anyOf" = .subschemaList := by
  decide

theorem wrapped_tidy {members : Members} {branches : List Json}
    (tidy : Tidy .subschema (.object members))
    (each : ∀ branch ∈ branches, Tidy .subschema branch) :
    Tidy .subschema (wrapped members branches) := by
  obtain ⟨distinct, inside⟩ := tidy_object.mp tidy
  refine tidy_object.mpr ⟨wrapped_nodup distinct branches, ?_⟩
  intro entry member
  rcases List.mem_append.mp member with kept | added
  · exact inside entry (List.mem_filter.mp kept).1
  · rw [List.mem_singleton.mp added]
    dsimp only
    rw [roleOf_anyOf, Tidy, tidyItems_iff]
    exact each

theorem wrapped_weight_le (members : Members) (branches : List Json) :
    weight .subschema (wrapped members branches) ≤
      2 + Members.total (charge (demand (.object members)))
        (members.filter fun entry => wrapperKeywords.contains entry.1) + itemWeights branches := by
  have untyped := wrapped_get?_none members branches (by decide) (by decide : "anyOf" ≠ "type")
  have demands : demand (wrapped members branches) ≤ demand (.object members) :=
    demand_le (.inr (wrapped_get?_none members branches (by decide) (by decide)))
      (.inr (wrapped_get?_none members branches (by decide) (by decide)))
  have closed := not_isOpen (by decide : "anyOf" ∈ ["const", "enum", "anyOf"])
    (Json.contains_of_get? (wrapped_anyOf members branches))
  have lighter := (wrapped members branches).total_mono (charge_mono demands)
  have list : charge (demand (.object members)) "anyOf" (.array branches) =
      itemWeights branches + 1 := by
    rw [charge, roleOf_anyOf]
    rfl
  have split : (wrapped members branches).total (charge (demand (.object members))) =
      Members.total (charge (demand (.object members)))
        (members.filter fun entry => wrapperKeywords.contains entry.1) +
          (itemWeights branches + 1) := by
    rw [← list]
    exact Members.total_append _ _
  rw [weight_object rfl, bulk, copies, potential, untyped, closed]
  simp only [Bool.false_eq_true, if_false]
  omega

theorem sum_weights_le {branches : List Json} {most : Nat}
    (each : ∀ branch ∈ branches, weight .subschema branch ≤ most) :
    itemWeights branches ≤ branches.length * most := by
  induction branches with
  | nil => exact Nat.zero_le _
  | cons branch rest ih =>
    rw [List.forall_mem_cons] at each
    have later := ih each.2
    have first := each.1
    rw [itemWeights, List.length_cons, Nat.succ_mul]
    omega

theorem branches_weight_le (members : Members) {types : List Json}
    (strings : ∀ type ∈ types, type.string?.isSome = true) :
    itemWeights (types.map (branch members)) ≤
      types.length * (42 + 3 * (demand (.object members) + 4) +
        Members.total (charge (demand (.object members)))
          (members.filter fun entry => moves entry.1)) := by
  have each := @sum_weights_le (types.map (branch members)) _ (by
    intro each member
    obtain ⟨type, listed, rfl⟩ := List.mem_map.mp member
    have string := strings type listed
    cases type <;> cases string
    exact branch_weight_le members _)
  rwa [List.length_map] at each

theorem typeUnion_shrinks : typeUnion.Shrinks := by
  intro node context tidy _ condition
  simp only [typeUnion, Bool.and_eq_true] at condition ⊢
  cases found : node.arrayAt? "type" with
  | none =>
    rw [found] at condition
    cases condition.2
  | some types =>
    have present := Json.get?_of_arrayAt? found
    obtain ⟨members, rfl⟩ := Json.eq_object_of_get? (Option.isSome_iff_exists.mpr ⟨_, present⟩)
    rw [found, Option.any_some, Bool.and_eq_true, decide_eq_true_eq, List.all_eq_true] at condition
    obtain ⟨_, several, strings⟩ := condition
    rw [splitTypes_eq found]
    -- Of the two shares more than there are types one is for the wrapper and one is lost.
    refine ⟨wrapped_tidy tidy ?_, ?_⟩
    · intro branch member
      obtain ⟨type, _, rfl⟩ := List.mem_map.mp member
      exact branch_tidy tidy type
    · have shared := @Members.total_filter_add_le (charge (demand (.object members)))
        wrapperKeywords.contains moves (fun name wrapper => by rw [moves, wrapper]; rfl) members
      have branches := branches_weight_le members strings
      have wrapper := wrapped_weight_le members (types.map (branch members))
      have whole : weight .subschema (.object members) = 1 + (types.length + 2) *
          (41 + 6 * (demand (.object members) + 4) +
            Members.total (charge (demand (.object members))) members) := by
        rw [weight_object rfl, bulk, copies, potential, present]
        rfl
      have copied : types.length * (42 + 3 * (demand (.object members) + 4) +
          Members.total (charge (demand (.object members)))
            (members.filter fun entry => moves entry.1)) ≤
          types.length * (41 + 6 * (demand (.object members) + 4) +
            Members.total (charge (demand (.object members))) members) :=
        Nat.mul_le_mul_left _ (by omega)
      have apart := Nat.add_mul types.length 2 (41 + 6 * (demand (.object members) + 4) +
        Members.total (charge (demand (.object members))) members)
      change weight .subschema (wrapped members (types.map (branch members))) < _
      omega

theorem bound_cost_le (demand : Nat) {keyword : String}
    (bound : keyword = "maximum" ∨ keyword = "minimum") (value : Json) :
    cost demand keyword value ≤ 2 := by
  rcases bound with rfl | rfl
  · change (if value.number?.any (!·.isIntegral) then 2 else 1) ≤ 2
    split <;> decide
  · change (if value.number?.any (!·.isIntegral) then 2 else 1) ≤ 2
    split <;> decide

theorem rules_shrink : ∀ rule ∈ rules, rule.Shrinks := by
  simp only [rules, List.forall_mem_cons]
  refine ⟨trueSchema_shrinks, constAsEnum_shrinks, booleanAsEnum_shrinks, nullAsConst_shrinks,
    typeUnion_shrinks, ?_, ?_, List.forall_mem_nil _⟩
  · refine inclusiveBound_shrinks (by decide) ?_ ?_ (by decide)
    · intro demand value
      rw [charge_plain (by decide)]
      exact Nat.lt_succ_self 2
    · intro demand value
      rw [charge_plain (by decide)]
      exact bound_cost_le demand (.inl rfl) value
  · refine inclusiveBound_shrinks (by decide) ?_ ?_ (by decide)
    · intro demand value
      rw [charge_plain (by decide)]
      exact Nat.lt_succ_self 2
    · intro demand value
      rw [charge_plain (by decide)]
      exact bound_cost_le demand (.inr rfl) value

end Spelling

end SchemaPack
