import SchemaPack.Proofs.Canonical.Collapse
import SchemaPack.Proofs.Canonical.Keeps
import SchemaPack.Proofs.Canonical.Requirements
import SchemaPack.Proofs.Json.Throughout

namespace SchemaPack

open Json

def Rule.Upholds (rule : Rule) (P : Json → Prop) : Prop :=
  ∀ node context, rule.condition node context = true → node.Throughout P →
    (rule.transform node).Throughout P

section Rules

variable {P : Json → Prop} (lasting : Lasting P)

include lasting

namespace Redundancy

theorem rules_uphold : ∀ rule ∈ rules, rule.Upholds P := by
  have erases_one : ∀ name node, node.Throughout P → (Json.erase node name).Throughout P :=
    fun name _ holds => lasting.erase holds name
  have erases : ∀ names node, node.Throughout P → (Json.eraseAll node names).Throughout P :=
    fun names _ holds => lasting.eraseAll holds names
  have tighter : ∀ name inclusive exclusive ordering,
      (tighterBound name inclusive exclusive ordering).Upholds P := by
    intro name inclusive exclusive ordering node context _ holds
    simp only [tighterBound]
    split
    · exact erases_one _ _ holds
    · exact holds
  simp only [rules, List.forall_mem_cons]
  exact ⟨fun _ _ _ => erases_one _ _, fun _ _ _ => erases_one _ _, fun _ _ _ => erases_one _ _,
    fun _ _ _ => erases_one _ _, fun _ _ _ => erases_one _ _, fun _ _ _ => erases_one _ _,
    fun _ _ _ => erases _ _, fun _ _ _ => erases_one _ _, fun _ _ _ => erases_one _ _,
    tighter _ _ _ _, tighter _ _ _ _, fun _ _ _ => erases_one _ _, fun _ _ _ => erases_one _ _,
    fun _ _ _ => erases _ _, List.forall_mem_nil _⟩

end Redundancy

namespace Spelling

theorem enumOfConst_upholds {node : Json} (holds : node.Throughout P) :
    (enumOfConst node).Throughout P := by
  unfold enumOfConst
  split
  · rename_i value found
    refine lasting.insert (lasting.erase holds _) (lasting.array ?_) (.inl (by decide))
    exact List.forall_mem_singleton.mpr (holds.of_get? found)
  · exact holds

theorem inclusive?_upholds {rounding : Rounding} {step : Int} {bound result : Number}
    (moved : inclusive? rounding step bound = some result) : (Json.number result).Throughout P := by
  unfold inclusive? at moved
  split at moved
  · rename_i integral
    rw [Number.offset?, if_pos integral] at moved
    obtain ⟨_, _, moved⟩ := Option.bind_eq_some_iff.mp moved
    obtain ⟨_, _, rfl⟩ := Option.map_eq_some_iff.mp moved
    exact lasting.integer _ _
  · rename_i fraction
    cases moved
    rw [Number.round_eq (Bool.eq_false_iff.mpr fraction)]
    exact lasting.integer _ _

theorem inclusiveBound_upholds {name exclusive inclusive : String} {rounding : Rounding}
    {step : Int} (other : inclusive ≠ "multipleOf") :
    (inclusiveBound name exclusive inclusive rounding step).Upholds P := by
  intro node context _ holds
  simp only [inclusiveBound]
  split
  · rename_i found
    obtain ⟨_, _, moved⟩ := Option.bind_eq_some_iff.mp found
    exact lasting.insert (lasting.erase holds _) (inclusive?_upholds lasting moved) (.inl other)
  · exact holds

theorem branch_upholds {members : Members} {type : Json}
    (holds : (Json.object members).Throughout P) (typed : type.Throughout P) :
    (branch members type).Throughout P := by
  refine lasting.members ?_ fun x found => .inr ⟨.object members, ?_, holds.self⟩
  · refine List.forall_mem_cons.mpr ⟨typed, fun entry listed => ?_⟩
    exact holds.entries entry (List.mem_filter.mp listed).1
  · have other : "type" ≠ "multipleOf" := by decide
    rw [Members.get?_cons, if_neg other] at found
    have kept := @Members.get?_filter members
      (fun name => !wrapperKeywords.contains name && name != "type") "multipleOf" (by decide)
    rwa [kept] at found

theorem splitTypes_upholds {node : Json} (holds : node.Throughout P) :
    (splitTypes node).Throughout P := by
  cases node with
  | object members =>
    cases found : (Json.object members).arrayAt? "type" with
    | none =>
      simp only [splitTypes, found]
      exact holds
    | some types =>
      rw [splitTypes_eq found]
      have typed := holds.of_arrayAt? found
      refine lasting.members ?_ fun x divides => ?_
      · intro entry listed
        rcases List.mem_append.mp listed with stays | added
        · exact holds.entries entry (List.mem_filter.mp stays).1
        · rw [List.mem_singleton.mp added]
          refine lasting.array fun item listed => ?_
          obtain ⟨type, chosen, rfl⟩ := List.mem_map.mp listed
          exact branch_upholds lasting holds (typed type chosen)
      · have none := wrapped_get?_none members (types.map (branch members))
          (by decide : wrapperKeywords.contains "multipleOf" = false) (by decide)
        cases none.symm.trans divides
  | null | bool | number | string | array => exact holds

theorem rules_uphold : ∀ rule ∈ rules, rule.Upholds P := by
  have booleans : (Json.array [.bool false, .bool true]).Throughout P := by
    refine lasting.array ?_
    simp only [List.forall_mem_cons]
    exact ⟨lasting.bool _, lasting.bool _, List.forall_mem_nil _⟩
  simp only [rules, List.forall_mem_cons]
  refine ⟨?_, fun _ _ _ => enumOfConst_upholds lasting, ?_, ?_,
    fun _ _ _ => splitTypes_upholds lasting, inclusiveBound_upholds lasting (by decide),
    inclusiveBound_upholds lasting (by decide), List.forall_mem_nil _⟩
  · exact fun _ _ _ _ => lasting.emptyObject
  · exact fun _ _ _ holds => lasting.insert (lasting.erase holds _) booleans (.inl (by decide))
  · exact fun _ _ _ holds => lasting.insert (lasting.erase holds _) lasting.null
      (.inl (by decide))

end Spelling

namespace Collapse

theorem singleType_upholds : singleType.Upholds P := by
  intro node context _ holds
  simp only [singleType]
  split
  · rename_i found
    refine lasting.insert holds ?_ (.inl (by decide))
    exact holds.of_arrayAt? found _ List.mem_cons_self
  · exact holds

theorem equalBounds_upholds : equalBounds.Upholds P := by
  intro node context condition holds
  obtain ⟨_, _, pinned⟩ := pinned_of_condition condition
  rw [equalBounds_transform pinned]
  exact lasting.insert (lasting.eraseAll holds _) (holds.of_get? (get?_of_numberAt? pinned.lower))
    (.inl (by decide))

theorem closeRequired_upholds {required : List Json} {dependent : Members} (pending : List Json)
    (listed : ∀ entry ∈ required, entry.Throughout P)
    (depends : (Json.object dependent).Throughout P) :
    (∀ entry ∈ (closeRequired required dependent pending).1, entry.Throughout P) ∧
      (Json.object (closeRequired required dependent pending).2).Throughout P := by
  fun_induction closeRequired required dependent pending with
  | case1 => exact ⟨listed, depends⟩
  | case2 required dependent entry pending name items found added ih =>
    refine ih ?_ (lasting.erase depends name)
    intro entry either
    rcases List.mem_append.mp either with old | new
    · exact listed entry old
    · obtain ⟨_, ⟨text, rfl⟩, _⟩ := mem_missing.mp new
      exact lasting.string text
  | case3 _ _ _ _ _ ih => exact ih listed depends

theorem requiredDependencies_upholds : requiredDependencies.Upholds P := by
  intro node context _ holds
  simp only [requiredDependencies]
  split
  · rename_i required dependent first second
    obtain ⟨closed, rest⟩ := closeRequired_upholds lasting required (holds.of_arrayAt? first)
      (holds.of_get? (get?_of_objectAt? second))
    exact lasting.insert (lasting.insert holds rest (.inl (by decide))) (lasting.array closed)
      (.inl (by decide))
  · exact holds

theorem requiredCount_upholds : requiredCount.Upholds P := by
  intro node context _ holds
  simp only [requiredCount]
  split
  · exact lasting.insert holds (lasting.integer _ _) (.inl (by decide))
  · exact holds

theorem duplicates_upholds {name keyword vocabulary : String} (other : keyword ≠ "multipleOf") :
    (duplicates name keyword vocabulary).Upholds P := by
  intro node context _ holds
  rcases duplicates_transform name keyword vocabulary node with same | ⟨_, _, found, ran, same⟩
  · rwa [same]
  · rw [same]
    refine lasting.insert holds (lasting.array fun item listed => ?_) (.inl other)
    exact holds.of_arrayAt? found item (mem_of_mem_sortUnique ran listed)

theorem integralBound_upholds {name keyword : String} {rounding : Rounding}
    (other : keyword ≠ "multipleOf") : (integralBound name keyword rounding).Upholds P := by
  intro node context condition holds
  simp only [integralBound, Bool.and_eq_true] at condition ⊢
  split
  · rename_i value found
    rw [found, Option.any_some, Bool.not_eq_true'] at condition
    rw [Number.round_eq condition.2]
    exact lasting.insert holds (lasting.integer _ _) (.inl other)
  · exact holds

theorem rules_uphold : ∀ rule ∈ rules, rule.Upholds P := by
  have emptied : ∀ names value, value.Throughout P → ∀ node : Json, node.Throughout P →
      ((node.eraseAll names).insert "const" value).Throughout P :=
    fun names _ inside _ holds => lasting.insert (lasting.eraseAll holds names) inside
      (.inl (by decide))
  simp only [rules, List.forall_mem_cons]
  exact ⟨singleType_upholds lasting, fun _ _ _ => Spelling.enumOfConst_upholds lasting,
    equalBounds_upholds lasting, fun node _ _ => emptied _ _ (lasting.string "") node,
    fun node _ _ => emptied _ _ (lasting.array (List.forall_mem_nil _)) node,
    fun node _ _ => emptied _ _ lasting.emptyObject node,
    requiredDependencies_upholds lasting, requiredCount_upholds lasting,
    duplicates_upholds lasting (by decide), duplicates_upholds lasting (by decide),
    duplicates_upholds lasting (by decide), duplicates_upholds lasting (by decide),
    integralBound_upholds lasting (by decide), integralBound_upholds lasting (by decide),
    List.forall_mem_nil _⟩

end Collapse

theorem Pruning.rules_uphold : ∀ rule ∈ rules, rule.Upholds P := by
  intro rule listed node context _ holds
  obtain ⟨_, _, listed⟩ := List.mem_flatMap.mp listed
  obtain ⟨_, _, rfl⟩ := List.mem_map.mp listed
  exact lasting.eraseAll holds _

theorem Defaults.rules_uphold : ∀ rule ∈ rules, rule.Upholds P := by
  have types : (Json.array (InstanceType.all.map fun type => .string type.name)).Throughout P := by
    refine lasting.array fun item listed => ?_
    obtain ⟨type, _, rfl⟩ := List.mem_map.mp listed
    exact lasting.string type.name
  have written : ∀ keyword value, value.Throughout P →
      keyword ≠ "multipleOf" ∨ value = .number (.integer 1) →
        ∀ node : Json, node.Throughout P → (node.insert keyword value).Throughout P :=
    fun _ _ inside divides _ holds => lasting.insert holds inside divides
  simp only [rules, List.forall_mem_cons]
  exact ⟨fun node _ _ => written _ _ types (.inl (by decide)) node,
    fun node _ _ => written _ _ (lasting.integer _ _) (.inr rfl) node,
    fun node _ _ => written _ _ (lasting.integer _ _) (.inl (by decide)) node,
    fun node _ _ => written _ _ (lasting.integer _ _) (.inl (by decide)) node,
    fun node _ _ => written _ _ (lasting.integer _ _) (.inl (by decide)) node,
    fun node _ _ => written _ _ (lasting.array (List.forall_mem_nil _)) (.inl (by decide)) node,
    fun node _ _ => written _ _ lasting.emptyObject (.inl (by decide))
      node,
    List.forall_mem_nil _⟩

theorem canonicalRules_uphold : ∀ rule ∈ canonicalRules, rule.Upholds P := by
  intro rule listed
  simp only [canonicalRules, List.mem_append] at listed
  rcases listed with (((listed | listed) | listed) | listed) | listed
  · exact Redundancy.rules_uphold lasting rule listed
  · exact Spelling.rules_uphold lasting rule listed
  · exact Collapse.rules_uphold lasting rule listed
  · exact Pruning.rules_uphold lasting rule listed
  · exact Defaults.rules_uphold lasting rule listed

end Rules

theorem orderable_of_arrayAt? {node : Json} (precise : node.Precise) {keyword : String}
    {values : List Json} (found : node.arrayAt? keyword = some values) : Orderable values :=
  orderable_of_precise (precise_array.mp (precise.of_get? (get?_of_arrayAt? found)))

end SchemaPack
