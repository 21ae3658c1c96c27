import SchemaPack.Proofs.Canonical.Collapse
import SchemaPack.Proofs.Canonical.Keeps
import SchemaPack.Proofs.Canonical.Requirements
import SchemaPack.Proofs.Json.Deduplication
import SchemaPack.Proofs.Plan.Exclusion

namespace SchemaPack

namespace Rule

/-- Where a rule has been applied it does not match any more. -/
def Ceases (rule : Rule) : Prop :=
  ∀ node context, rule.condition node context = true →
    rule.condition (rule.transform node) context = false

/-- Where a rule matches it shortens the array under a keyword if comparison orders the values, and
    never makes it longer. -/
def Shortens (rule : Rule) (keyword : String) : Prop :=
  ∀ node context, rule.condition node context = true →
    ∃ values fewer, node.arrayAt? keyword = some values ∧
      (rule.transform node).arrayAt? keyword = some fewer ∧ fewer.length ≤ values.length ∧
        (Json.Orderable values → fewer.length < values.length)

variable {rule : Rule} {keyword : String}

theorem ceases_of_removed
    (removed : ∀ node context, rule.condition node context = true →
      (rule.transform node).get? keyword = none)
    (needed : ∀ node context, node.get? keyword = none → rule.condition node context = false) :
    rule.Ceases :=
  fun node context condition => needed _ context (removed node context condition)

theorem ceases_of_erase (erases : ∀ node, rule.transform node = node.erase keyword)
    (needed : ∀ node context, node.get? keyword = none → rule.condition node context = false) :
    rule.Ceases :=
  ceases_of_removed (fun node _ _ => by rw [erases, Json.get?_erase_self]) needed

theorem ceases_of_written
    (written : ∀ node context, rule.condition node context = true →
      ∃ value, (rule.transform node).get? keyword = some value)
    (barred : ∀ node context value, node.get? keyword = some value →
      rule.condition node context = false) : rule.Ceases := by
  intro node context condition
  obtain ⟨value, found⟩ := written node context condition
  exact barred _ context value found

end Rule

namespace Redundancy

open Rule

theorem withoutCompanion_ceases {name vocabulary keyword companion : String} :
    (withoutCompanion name vocabulary keyword companion).Ceases := by
  refine ceases_of_erase (fun _ => rfl) fun node context absent => ?_
  simp [withoutCompanion, Json.contains_eq, absent]

theorem maxContainsAboveMaxItems_ceases : maxContainsAboveMaxItems.Ceases := by
  refine ceases_of_erase (fun _ => rfl) fun node context absent => ?_
  simp [maxContainsAboveMaxItems, Json.numberAt?, absent]

theorem impliedUniqueItems_ceases : impliedUniqueItems.Ceases := by
  refine ceases_of_erase (fun _ => rfl) fun node context absent => ?_
  simp [impliedUniqueItems, absent]

theorem ifWithoutBranches_ceases : ifWithoutBranches.Ceases := by
  refine ceases_of_erase (fun _ => rfl) fun node context absent => ?_
  simp [ifWithoutBranches, Json.contains_eq, absent]

theorem branchesWithoutIf_ceases : branchesWithoutIf.Ceases := by
  intro node context _
  simp [branchesWithoutIf, Json.containsAny, Json.contains_eq, Json.get?_eraseAll_of_mem]

theorem emptyObject_ceases {name vocabulary keyword : String} :
    (emptyObject name vocabulary keyword).Ceases := by
  refine ceases_of_erase (fun _ => rfl) fun node context absent => ?_
  simp [emptyObject, Json.objectAt?, absent]

theorem tighterBound_ceases {name inclusive exclusive : String} {tighter : Ordering} :
    (tighterBound name inclusive exclusive tighter).Ceases := by
  intro node context condition
  simp only [tighterBound, Bool.and_eq_true, Option.isSome_iff_exists] at condition ⊢
  obtain ⟨⟨_, closed, first⟩, opened, second⟩ := condition
  simp only [first, second]
  split
  · simp [Json.numberAt?, Json.get?_erase_self]
  · simp [Json.numberAt?, Json.get?_erase_self]

theorem constWithType_ceases : constWithType.Ceases := by
  refine ceases_of_erase (fun _ => rfl) fun node context absent => ?_
  simp [constWithType, Json.declaredType?, absent]

theorem enumWithType_ceases : enumWithType.Ceases := by
  refine ceases_of_erase (fun _ => rfl) fun node context absent => ?_
  simp [enumWithType, Json.declaredType?, absent]

theorem idleBesideEnum_subset {node left : Json}
    (listed : left.arrayAt? "enum" = node.arrayAt? "enum")
    (typed : left.contains "type" = node.contains "type")
    (fewer : ∀ name, left.contains name = true → node.contains name = true) :
    idleBesideEnum left ⊆ idleBesideEnum node := by
  unfold idleBesideEnum
  rw [listed, typed]
  split
  · exact List.Subset.refl _
  · split
    · exact List.Subset.refl _
    · apply List.map_subset
      intro keyword chosen
      simp only [List.mem_filter, Bool.and_eq_true] at chosen ⊢
      obtain ⟨known, ⟨validated, present⟩, idle⟩ := chosen
      exact ⟨known, ⟨validated, fewer _ present⟩, idle⟩

/-- What stands idle in the end did so before, and has been erased. -/
theorem idleAssertionsBesideEnum_ceases : idleAssertionsBesideEnum.Ceases := by
  intro node context _
  have same : ∀ name ∈ ["type", "const", "enum", "anyOf"],
      (idleAssertionsBesideEnum.transform node).get? name = node.get? name :=
    fun name typing => node.get?_eraseAll_of_notMem (notMem_idleBesideEnum node typing)
  have subset : idleBesideEnum (idleAssertionsBesideEnum.transform node) ⊆ idleBesideEnum node := by
    apply idleBesideEnum_subset
    · rw [Json.arrayAt?, Json.arrayAt?, same _ (by decide)]
    · rw [Json.contains_eq, Json.contains_eq, same _ (by decide)]
    · intro name present
      rw [Json.contains_eq] at present ⊢
      by_cases erased : name ∈ idleBesideEnum node
      · rw [idleAssertionsBesideEnum, Json.get?_eraseAll_of_mem _ erased] at present
        cases present
      · rwa [idleAssertionsBesideEnum, Json.get?_eraseAll_of_notMem _ erased] at present
  have none_idle : idleBesideEnum (idleAssertionsBesideEnum.transform node) = [] := by
    apply List.eq_nil_iff_forall_not_mem.mpr
    intro name idle
    have present := (mem_idleBesideEnum idle).2.1
    rw [Json.contains_eq, idleAssertionsBesideEnum,
      Json.get?_eraseAll_of_mem _ (subset idle)] at present
    cases present
  show (_ && !(idleBesideEnum _).isEmpty) = false
  rw [none_idle, List.isEmpty_nil, Bool.not_true, Bool.and_false]

theorem rules_cease : ∀ rule ∈ rules, rule.Ceases := by
  simp only [rules, List.forall_mem_cons]
  exact ⟨withoutCompanion_ceases, withoutCompanion_ceases, withoutCompanion_ceases,
    maxContainsAboveMaxItems_ceases, impliedUniqueItems_ceases, ifWithoutBranches_ceases,
    branchesWithoutIf_ceases, emptyObject_ceases, emptyObject_ceases,
    tighterBound_ceases, tighterBound_ceases, constWithType_ceases, enumWithType_ceases,
    idleAssertionsBesideEnum_ceases, List.forall_mem_nil _⟩

end Redundancy

namespace Spelling

open Rule

theorem trueSchema_ceases : trueSchema.Ceases := by
  intro node context _
  simp [trueSchema, Json.emptyObject]

theorem enumOfConst_get?_const (node : Json) : (enumOfConst node).get? "const" = none := by
  unfold enumOfConst
  split
  · rw [Json.get?_insert_ne _ _ (by decide), Json.get?_erase_self]
  · assumption

theorem constAsEnum_ceases : constAsEnum.Ceases := by
  refine ceases_of_removed (fun node _ _ => enumOfConst_get?_const node)
    fun node context absent => ?_
  simp [constAsEnum, Json.contains_eq, absent]

theorem untyped_get?_type (node value : Json) {keyword : String} (apart : keyword ≠ "type") :
    ((node.erase "type").insert keyword value).get? "type" = none := by
  rw [Json.get?_insert_ne _ _ apart, Json.get?_erase_self]

theorem booleanAsEnum_ceases : booleanAsEnum.Ceases := by
  refine ceases_of_removed (fun node _ _ => untyped_get?_type node _ (by decide))
    fun node context absent => ?_
  simp [booleanAsEnum, Json.hasType, Json.declaredType?, absent]

theorem nullAsConst_ceases : nullAsConst.Ceases := by
  refine ceases_of_removed (fun node _ _ => untyped_get?_type node _ (by decide))
    fun node context absent => ?_
  simp [nullAsConst, Json.hasType, Json.declaredType?, absent]

theorem typeUnion_ceases : typeUnion.Ceases := by
  refine @ceases_of_removed typeUnion "type" ?_ fun node context absent => ?_
  · intro node context condition
    simp only [typeUnion, Bool.and_eq_true] at condition ⊢
    obtain ⟨types, found, _⟩ := (Option.any_eq_true _ _).mp condition.2
    obtain ⟨members, rfl⟩ := Json.eq_object_of_get? (by rw [Json.get?_of_arrayAt? found]; rfl)
    rw [splitTypes_eq found]
    exact wrapped_get?_none members _ (by decide) (by decide)
  · simp [typeUnion, Json.arrayAt?, absent]

theorem inclusiveBound_ceases {name exclusive inclusive : String} {rounding : Rounding}
    {step : Int} : (inclusiveBound name exclusive inclusive rounding step).Ceases := by
  apply @ceases_of_written _ inclusive
  · intro node context condition
    simp only [inclusiveBound, Bool.and_eq_true] at condition ⊢
    obtain ⟨bound, given⟩ := Option.isSome_iff_exists.mp condition.2
    obtain ⟨_, found, _⟩ := Option.bind_eq_some_iff.mp given
    simp only [given]
    refine ⟨_, Json.get?_insert_self _ _ _ ?_⟩
    rw [Json.isObject_erase, Json.isObject_of_get? (Json.get?_of_numberAt? found)]
  · intro node context value present
    simp [inclusiveBound, Json.contains_eq, present]

theorem rules_cease : ∀ rule ∈ rules, rule.Ceases := by
  simp only [rules, List.forall_mem_cons]
  exact ⟨trueSchema_ceases, constAsEnum_ceases, booleanAsEnum_ceases, nullAsConst_ceases,
    typeUnion_ceases, inclusiveBound_ceases, inclusiveBound_ceases, List.forall_mem_nil _⟩

end Spelling

namespace Collapse

open Rule

theorem singleType_ceases : singleType.Ceases := by
  intro node context condition
  simp only [singleType, Bool.and_eq_true] at condition ⊢
  obtain ⟨_, single⟩ := condition
  split at single
  · rename_i name found
    have object := Json.isObject_of_get? (Json.get?_of_arrayAt? found)
    simp only [found]
    simp [Json.arrayAt?, Json.get?_insert_self _ _ _ object, Json.items?]
  · cases single

theorem constInEnum_ceases : constInEnum.Ceases := by
  refine ceases_of_removed (fun node _ _ => Spelling.enumOfConst_get?_const node)
    fun node context absent => ?_
  simp [constInEnum, absent]

theorem get?_const_insert {node value : Json} {names : List String}
    (object : node.isObject = true) :
    ((node.eraseAll names).insert "const" value).get? "const" = some value :=
  Json.get?_insert_self _ _ _ (by rw [Json.isObject_eraseAll, object])

theorem equalBounds_ceases : equalBounds.Ceases := by
  apply @ceases_of_written _ "const"
  · intro node context condition
    obtain ⟨_, _, pinned⟩ := pinned_of_condition condition
    rw [equalBounds_transform pinned]
    exact ⟨_, get?_const_insert (Json.isObject_of_get? (Json.get?_of_numberAt? pinned.lower))⟩
  · intro node context value present
    simp [equalBounds, pinned?, Json.containsAny, Json.contains_eq, present]

theorem ceases_of_emptied {rule : Rule} {limit : String} {names : List String} {value : Json}
    (emptied : ∀ node, rule.transform node = (node.eraseAll names).insert "const" value)
    (limited : ∀ node context, rule.condition node context = true → node.zeroAt limit = true)
    (barred : ∀ node context value, node.get? "const" = some value →
      rule.condition node context = false) : rule.Ceases := by
  refine ceases_of_written (fun node context condition => ?_) barred
  obtain ⟨_, found, _⟩ := (Option.any_eq_true _ _).mp (limited node context condition)
  rw [emptied]
  exact ⟨value, get?_const_insert (Json.isObject_of_get? (Json.get?_of_numberAt? found))⟩

theorem emptyString_ceases : emptyString.Ceases := by
  apply @ceases_of_emptied emptyString "maxLength" _ _ fun _ => rfl
  · intro node context condition
    simp only [emptyString, Bool.and_eq_true] at condition
    exact condition.1.1.2
  · intro node context value present
    simp [emptyString, Json.containsAny, Json.contains_eq, present]

theorem emptyArray_ceases : emptyArray.Ceases := by
  apply @ceases_of_emptied emptyArray "maxItems" _ _ fun _ => rfl
  · intro node context condition
    simp only [emptyArray, Bool.and_eq_true] at condition
    exact condition.1.1.2
  · intro node context value present
    simp [emptyArray, Json.containsAny, Json.contains_eq, present]

theorem emptyObject_ceases : emptyObject.Ceases := by
  apply @ceases_of_emptied emptyObject "maxProperties" _ _ fun _ => rfl
  · intro node context condition
    simp only [emptyObject, Bool.and_eq_true] at condition
    exact condition.1.1.1.2
  · intro node context value present
    simp [emptyObject, Json.containsAny, Json.contains_eq, present]

theorem requiredDependencies_ceases : requiredDependencies.Ceases := by
  intro node context condition
  simp only [requiredDependencies, Bool.and_eq_true] at condition
  have matched := condition.2
  split at matched
  · rename_i required dependent first second
    have list := requiredDependencies_required first second
    have entries := requiredDependencies_dependent first second
    have closes := closes_closeRequired required dependent
    have settled : (closeRequired required dependent required).1.any (fun entry =>
        (dependencies? (closeRequired required dependent required).2 entry).isSome) = false := by
      rw [List.any_eq_false]
      intro entry listed
      rw [closes.dependencies?_eq_none listed]
      exact Bool.false_ne_true
    generalize requiredDependencies.transform node = left at list entries ⊢
    simp only [requiredDependencies, list, entries, settled, Bool.and_false]
  · cases matched

theorem distinctRequired?_insert (node value : Json) :
    distinctRequired? (node.insert "minProperties" value) = distinctRequired? node := by
  rw [distinctRequired?, distinctRequired?, Json.arrayAt?, Json.arrayAt?,
    Json.get?_insert_ne _ _ (by decide)]

theorem requiredCount_ceases : requiredCount.Ceases := by
  intro node context condition
  simp only [requiredCount, Bool.and_eq_true] at condition ⊢
  have matched := condition.2
  split at matched
  · rename_i minimum count least counted
    obtain ⟨_, found, _⟩ := Option.bind_eq_some_iff.mp least
    have object := Json.isObject_of_get? (Json.get?_of_numberAt? found)
    have written := Json.numberAt?_of_get?
      (Json.get?_insert_self node "minProperties" (.number (.ofInt64 count)) object)
    have exact : (Number.ofInt64 count).toInt64? .up = some count := word?_toInt count
    simp only [counted, written, distinctRequired?_insert, Option.bind_some, exact]
    simp
  · cases matched

theorem integralBound_ceases {name keyword : String} {rounding : Rounding} :
    (integralBound name keyword rounding).Ceases := by
  intro node context condition
  simp only [integralBound, Bool.and_eq_true] at condition ⊢
  obtain ⟨bound, found, fraction⟩ := (Option.any_eq_true _ _).mp condition.2
  have object := Json.isObject_of_get? (Json.get?_of_numberAt? found)
  have written := Json.numberAt?_of_get?
    (Json.get?_insert_self node keyword (.number (bound.round rounding)) object)
  have whole : (bound.round rounding).isIntegral = true := by
    rw [Number.round_eq ((Bool.not_eq_true' _).mp fraction)]
    rfl
  simp only [found, written, Option.any_some, whole, Bool.not_true, Bool.and_false]

/-- The rules that drop values listed twice, with the keywords that list them. -/
def deduplicating : List (String × Rule) := [
  ("allOf", duplicateAllOf),
  ("anyOf", duplicateAnyOf),
  ("enum", duplicateEnum),
  ("required", duplicateRequired)]

theorem duplicates_shortens {name keyword vocabulary : String} :
    (duplicates name keyword vocabulary).Shortens keyword := by
  intro node context condition
  obtain ⟨values, found, repeated⟩ := repeated_of_condition condition
  have object := Json.isObject_of_get? (Json.get?_of_arrayAt? found)
  refine ⟨values, ?_⟩
  cases ran : Json.sortUnique values with
  | none =>
    refine ⟨values, found, ?_, Nat.le_refl _, fun orderable => ?_⟩
    · simp only [duplicates, found, Option.bind_some, ran]
    · cases ran.symm.trans (Json.sortUnique_eq orderable)
  | some fewer =>
    rw [duplicates_transform_eq found ran]
    obtain ⟨_, perm, sublist⟩ := Json.sortUnique_subperm ran
    exact ⟨fewer, found, Json.arrayAt?_of_get? (Json.get?_insert_self _ _ _ object),
      perm.length_eq ▸ sublist.length_le,
      fun orderable => Json.sortUnique_length_lt orderable repeated ran⟩

theorem deduplicating_shorten : ∀ entry ∈ deduplicating, entry.2.Shortens entry.1 := by
  simp only [deduplicating, List.forall_mem_cons]
  exact ⟨duplicates_shortens, duplicates_shortens, duplicates_shortens, duplicates_shortens,
    List.forall_mem_nil _⟩

theorem rules_cease : ∀ rule ∈ rules, (∀ keyword, (keyword, rule) ∉ deduplicating) →
    rule.Ceases := by
  simp only [rules, List.forall_mem_cons]
  refine ⟨fun _ => singleType_ceases, fun _ => constInEnum_ceases, fun _ => equalBounds_ceases,
    fun _ => emptyString_ceases, fun _ => emptyArray_ceases, fun _ => emptyObject_ceases,
    fun _ => requiredDependencies_ceases, fun _ => requiredCount_ceases,
    fun other => absurd ?_ (other "allOf"), fun other => absurd ?_ (other "anyOf"),
    fun other => absurd ?_ (other "enum"), fun other => absurd ?_ (other "required"),
    fun _ => integralBound_ceases, fun _ => integralBound_ceases, List.forall_mem_nil _⟩
  all_goals simp [deduplicating]

end Collapse

namespace Pruning

theorem dropInapplicable_ceases (type : InstanceType) (family : Family) :
    (dropInapplicable type family).Ceases := by
  intro node context _
  have gone : (node.eraseAll (Keyword.inapplicable type family.vocabularies)).containsAny
      (Keyword.inapplicable type family.vocabularies) = false := by
    rw [Json.containsAny, List.any_eq_false]
    intro name listed
    simp [Json.contains_eq, Json.get?_eraseAll_of_mem _ listed]
  simp only [dropInapplicable, gone, Bool.and_false]

theorem rules_cease : ∀ rule ∈ rules, rule.Ceases := by
  intro rule listed
  obtain ⟨type, _, chosen⟩ := List.mem_flatMap.mp listed
  obtain ⟨family, _, rfl⟩ := List.mem_map.mp chosen
  exact dropInapplicable_ceases type family

end Pruning

namespace Defaults

open Rule

theorem allTypes_ceases : allTypes.Ceases := by
  apply @ceases_of_written _ "type"
  · intro node context condition
    simp only [allTypes, Bool.and_eq_true] at condition
    exact ⟨_, Json.get?_insert_self _ _ _ condition.1.2⟩
  · intro node context value present
    simp [allTypes, typeConstraining, Json.containsAny, Json.contains_eq, present]

theorem default_ceases {name vocabulary keyword : String} {type : InstanceType} {value : Json} :
    (default name type vocabulary keyword value).Ceases := by
  apply @ceases_of_written _ keyword
  · intro node context condition
    simp only [default, Bool.and_eq_true] at condition
    obtain ⟨⟨_, typed⟩, _⟩ := condition
    exact ⟨value, Json.get?_insert_self _ _ _ (Json.isObject_of_get? (Json.hasType_iff.mp typed))⟩
  · intro node context other present
    simp [default, Json.containsAny, Json.contains_eq, present]

theorem rules_cease : ∀ rule ∈ rules, rule.Ceases := by
  simp only [rules, List.forall_mem_cons]
  exact ⟨allTypes_ceases, default_ceases, default_ceases, default_ceases, default_ceases,
    default_ceases, default_ceases, List.forall_mem_nil _⟩

end Defaults

namespace Collapse

variable {node : Json} {context : Context}

theorem equalBounds_left (condition : equalBounds.condition node context = true) :
    equalBounds.crashes (equalBounds.transform node) context = false := by
  obtain ⟨value, _, pinned⟩ := pinned_of_condition condition
  rw [equalBounds_transform pinned]
  have present := @get?_const_insert node (.number value)
    ["type", "minimum", "maximum", "multipleOf"]
    (Json.isObject_of_get? (Json.get?_of_numberAt? pinned.lower))
  simp only [equalBounds, pinned?, Json.containsAny, List.any_cons, Json.contains_eq, present,
    Option.isSome_some, Bool.true_or, Bool.not_true, Bool.false_and, Bool.false_eq_true, if_false,
    Option.any_none, Bool.and_false]

theorem requiredCount_left (condition : requiredCount.condition node context = true) :
    requiredCount.crashes (requiredCount.transform node) context = false := by
  simp only [requiredCount, Bool.and_eq_true] at condition ⊢
  have matched := condition.2
  split at matched
  · rename_i count _ counted
    obtain ⟨required, found, distinct⟩ := Option.bind_eq_some_iff.mp counted
    have fresh : Json.hasDuplicates required = some false := by
      by_contra other
      rw [if_neg other] at distinct
      cases distinct
    have same : (node.insert "minProperties" (.number (.ofInt64 count))).arrayAt? "required" =
        some required := by
      rw [Json.arrayAt?, Json.get?_insert_ne _ _ (by decide)]
      exact found
    simp only [counted, same, Option.any_some, fresh, Option.isNone_some, Bool.and_false]
  · cases matched

end Collapse

theorem canonicalRules_left {rule : Rule} {node : Json} {context : Context}
    (listed : rule ∈ canonicalRules) (condition : rule.condition node context = true)
    (other : ∀ keyword, (keyword, rule) ∉ Collapse.deduplicating) :
    rule.crashes (rule.transform node) context = false := by
  rcases canonicalRules_safe rule listed with hazardous | safe
  · simp only [Collapse.hazardous, List.mem_cons, List.not_mem_nil, or_false] at hazardous
    rcases hazardous with rfl | rfl | rfl | rfl | rfl | rfl
    · exact Collapse.equalBounds_left condition
    · exact Collapse.requiredCount_left condition
    · exact absurd (by simp [Collapse.deduplicating]) (other "allOf")
    · exact absurd (by simp [Collapse.deduplicating]) (other "anyOf")
    · exact absurd (by simp [Collapse.deduplicating]) (other "enum")
    · exact absurd (by simp [Collapse.deduplicating]) (other "required")
  · exact safe _ context

theorem canonicalRules_cease : ∀ rule ∈ canonicalRules,
    (∀ keyword, (keyword, rule) ∉ Collapse.deduplicating) → rule.Ceases := by
  intro rule listed other
  simp only [canonicalRules, List.mem_append] at listed
  rcases listed with (((listed | listed) | listed) | listed) | listed
  · exact Redundancy.rules_cease rule listed
  · exact Spelling.rules_cease rule listed
  · exact Collapse.rules_cease rule listed other
  · exact Pruning.rules_cease rule listed
  · exact Defaults.rules_cease rule listed

theorem planRules_cease : ∀ rule ∈ planRules, rule.Ceases := by
  intro rule listed node context condition
  obtain ⟨_, encoding, written, _⟩ := planRules_plan rule listed node context condition
  rw [written]
  exact planRules_idle_document encoding context rule listed

/-- Where a rule has just been applied it is not ready to be applied again, and does not crash.
    Only of the rules that drop values listed twice this is left open, but each time they leave a
    shorter list, if there are at most 20 values or if comparison orders them. -/
theorem rule_ceases (rule : Rule) (node : Json) (context : Context)
    (listed : rule ∈ canonicalRules ++ planRules)
    (condition : rule.condition node context = true) :
    let left := rule.transform node
    ((∀ keyword, (keyword, rule) ∉ Collapse.deduplicating) →
        rule.condition left context = false ∧ rule.crashes left context = false) ∧
      ∀ keyword, (keyword, rule) ∈ Collapse.deduplicating → ∃ values fewer,
        node.arrayAt? keyword = some values ∧ left.arrayAt? keyword = some fewer ∧
          fewer.length ≤ values.length ∧
            (Json.Orderable values → fewer.length < values.length) := by
  intro left
  constructor
  · intro other
    rcases List.mem_append.mp listed with listed | planned
    · exact ⟨canonicalRules_cease rule listed other node context condition,
        canonicalRules_left listed condition other⟩
    · exact ⟨planRules_cease rule planned node context condition,
        planRules_safe rule planned left context⟩
  · intro keyword among
    exact Collapse.deduplicating_shorten _ among node context condition

/-- Properties that require each other, one of them listed twice. -/
theorem rule_ceases_required :
    let node := Json.object [("required", .array [.string "a", .string "a"]),
      ("dependentRequired", .object [("a", .array [.string "b"]), ("b", .array [.string "a"])])]
    let context : Context :=
      ⟨Dialect.draft202012, Dialect.draft202012, [Vocabulary.validation], .root⟩
    let closed := Collapse.requiredDependencies.transform node
    let distinct := Collapse.duplicateRequired.transform node
    Collapse.requiredDependencies.condition node context = true ∧
      Collapse.requiredDependencies.condition closed context = false ∧
        Collapse.duplicateRequired.condition node context = true ∧
          ∃ fewer, distinct.arrayAt? "required" = some fewer ∧ fewer.length < 2 := by
  intro node context closed distinct
  have requires : Collapse.requiredDependencies.condition node context = true := by decide +kernel
  have repeats : Collapse.duplicateRequired.condition node context = true := by decide +kernel
  have named : ∀ entry ∈ Collapse.deduplicating, entry.2.name ≠ "dependent_required_tautology" := by
    decide
  have canonical : ∀ rule ∈ Collapse.rules, rule ∈ canonicalRules ++ planRules := by
    intro rule listed
    simp [canonicalRules, listed]
  have first := rule_ceases Collapse.requiredDependencies node context
    (canonical _ (by simp [Collapse.rules])) requires
  have second := rule_ceases Collapse.duplicateRequired node context
    (canonical _ (by simp [Collapse.rules])) repeats
  have ceases := first.1 fun _ listed => named _ listed rfl
  obtain ⟨_, fewer, found, left, _, less⟩ :=
    second.2 "required" (by simp [Collapse.deduplicating])
  cases found
  exact ⟨requires, ceases.1, repeats, fewer, left, less (.inl (by decide))⟩

/-- Equal values are found among 21 that comparison does not order, and none of them is dropped. -/
theorem rule_not_shortens :
    let node := Json.object [("enum", .array Json.disordered)]
    let context : Context :=
      ⟨Dialect.draft202012, Dialect.draft202012, [Vocabulary.validation], .root⟩
    let left := Collapse.duplicateEnum.transform node
    Collapse.duplicateEnum.condition node context = true ∧
      Collapse.duplicateEnum.crashes node context = false ∧
        (left.arrayAt? "enum").map (·.length) = some 21 := by
  decide +kernel

end SchemaPack
