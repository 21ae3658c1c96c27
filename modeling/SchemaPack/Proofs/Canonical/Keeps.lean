import SchemaPack.Canonical
import SchemaPack.Proofs.Json.Totals

namespace SchemaPack

def Rule.Keeps (rule : Rule) (name : String) : Prop :=
  ∀ node context, rule.condition node context = true →
    (rule.transform node).get? name = node.get? name

namespace Redundancy

theorem withoutCompanion_keeps {rule vocabulary keyword companion name : String}
    (other : name ≠ keyword) : (withoutCompanion rule vocabulary keyword companion).Keeps name :=
  fun node _ _ => node.get?_erase_ne other.symm

theorem maxContainsAboveMaxItems_keeps {name : String} (other : name ≠ "maxContains") :
    maxContainsAboveMaxItems.Keeps name :=
  fun node _ _ => node.get?_erase_ne other.symm

theorem impliedUniqueItems_keeps {name : String} (other : name ≠ "uniqueItems") :
    impliedUniqueItems.Keeps name :=
  fun node _ _ => node.get?_erase_ne other.symm

theorem ifWithoutBranches_keeps {name : String} (other : name ≠ "if") :
    ifWithoutBranches.Keeps name :=
  fun node _ _ => node.get?_erase_ne other.symm

theorem branchesWithoutIf_keeps {name : String} (other : name ∉ ["then", "else"]) :
    branchesWithoutIf.Keeps name :=
  fun node _ _ => node.get?_eraseAll_of_notMem other

theorem emptyObject_keeps {rule vocabulary keyword name : String} (other : name ≠ keyword) :
    (emptyObject rule vocabulary keyword).Keeps name :=
  fun node _ _ => node.get?_erase_ne other.symm

theorem tighterBound_keeps {rule inclusive exclusive name : String} {tighter : Ordering}
    (other : name ≠ inclusive ∧ name ≠ exclusive) :
    (tighterBound rule inclusive exclusive tighter).Keeps name := by
  intro node _ _
  simp only [tighterBound]
  split
  · split
    · exact node.get?_erase_ne other.2.symm
    · exact node.get?_erase_ne other.1.symm
  · rfl

theorem constWithType_keeps {name : String} (other : name ≠ "type") : constWithType.Keeps name :=
  fun node _ _ => node.get?_erase_ne other.symm

theorem enumWithType_keeps {name : String} (other : name ≠ "type") : enumWithType.Keeps name :=
  fun node _ _ => node.get?_erase_ne other.symm

theorem mem_idleBesideEnum {node : Json} {name : String} (idle : name ∈ idleBesideEnum node) :
    node.contains "type" = false ∧ node.contains name = true ∧
      ∃ keyword ∈ Keyword.all, keyword.name = name ∧
        keyword.vocabulary = Vocabulary.validation ∧ keyword.instanceTypes ≠ [] := by
  unfold idleBesideEnum at idle
  split at idle
  · cases idle
  · rename_i values _
    split at idle
    · cases idle
    · rename_i some_values
      simp only [Bool.or_eq_true, not_or, Bool.not_eq_true] at some_values
      obtain ⟨keyword, listed, named⟩ := List.mem_map.mp idle
      obtain ⟨listed, chosen⟩ := List.mem_filter.mp listed
      simp only [Bool.and_eq_true, beq_iff_eq, Bool.not_eq_true'] at chosen
      obtain ⟨⟨validated, present⟩, unused⟩ := chosen
      refine ⟨some_values.2, named ▸ present, keyword, listed, named, validated, ?_⟩
      intro every
      obtain ⟨value, rest, rfl⟩ := List.exists_cons_of_ne_nil
        (List.isEmpty_eq_false_iff.mp some_values.1)
      simp only [List.map_cons, List.any_cons, Keyword.appliesTo, every, List.isEmpty_nil,
        Bool.true_or, reduceCtorEq] at unused

theorem typing_everywhere : ∀ keyword ∈ Keyword.all,
    keyword.name ∈ ["type", "const", "enum", "anyOf"] → keyword.instanceTypes = [] := by
  decide +kernel

theorem notMem_idleBesideEnum (node : Json) {name : String}
    (typing : name ∈ ["type", "const", "enum", "anyOf"]) : name ∉ idleBesideEnum node := by
  intro idle
  obtain ⟨_, _, keyword, listed, named, _, limited⟩ := mem_idleBesideEnum idle
  exact limited (typing_everywhere keyword listed (named ▸ typing))

theorem idleAssertionsBesideEnum_keeps {name : String}
    (other : ∀ keyword ∈ Keyword.all, keyword.name = name →
      keyword.vocabulary ≠ Vocabulary.validation) : idleAssertionsBesideEnum.Keeps name := by
  intro node _ _
  refine node.get?_eraseAll_of_notMem ?_
  intro idle
  obtain ⟨_, _, keyword, listed, named, validated, _⟩ := mem_idleBesideEnum idle
  exact other keyword listed named validated

end Redundancy

namespace Spelling

theorem trueSchema_keeps (name : String) : trueSchema.Keeps name := by
  intro node context condition
  simp only [trueSchema, Bool.and_eq_true, beq_iff_eq] at condition
  rw [condition.2]
  rfl

theorem enumOfConst_get? (node : Json) {name : String} (other : name ∉ ["const", "enum"]) :
    (enumOfConst node).get? name = node.get? name := by
  simp only [List.mem_cons, List.not_mem_nil, or_false, not_or] at other
  unfold enumOfConst
  split
  · rw [Json.get?_insert_ne _ _ (Ne.symm other.2), Json.get?_erase_ne _ (Ne.symm other.1)]
  · rfl

theorem constAsEnum_keeps {name : String} (other : name ∉ ["const", "enum"]) :
    constAsEnum.Keeps name :=
  fun node _ _ => enumOfConst_get? node other

theorem booleanAsEnum_keeps {name : String} (other : name ∉ ["type", "enum"]) :
    booleanAsEnum.Keeps name := by
  simp only [List.mem_cons, List.not_mem_nil, or_false, not_or] at other
  intro node _ _
  simp only [booleanAsEnum]
  rw [Json.get?_insert_ne _ _ (Ne.symm other.2), Json.get?_erase_ne _ (Ne.symm other.1)]

theorem nullAsConst_keeps {name : String} (other : name ∉ ["type", "const"]) :
    nullAsConst.Keeps name := by
  simp only [List.mem_cons, List.not_mem_nil, or_false, not_or] at other
  intro node _ _
  simp only [nullAsConst]
  rw [Json.get?_insert_ne _ _ (Ne.symm other.2), Json.get?_erase_ne _ (Ne.symm other.1)]

/-- What is left of a node whose types are split into branches. -/
def wrapped (members : Members) (branches : List Json) : Json :=
  .object ((members.filter fun entry => wrapperKeywords.contains entry.1) ++
    [("anyOf", .array branches)])

theorem wrapped_get?_none (members : Members) (branches : List Json) {name : String}
    (dropped : wrapperKeywords.contains name = false) (other : "anyOf" ≠ name) :
    (wrapped members branches).get? name = none := by
  rw [wrapped, Json.get?_object, Members.get?_append, Members.get?_filter_none _ dropped,
    Members.get?_cons, if_neg other]
  rfl

theorem wrapped_anyOf (members : Members) (branches : List Json) :
    (wrapped members branches).get? "anyOf" = some (.array branches) := by
  rw [wrapped, Json.get?_object, Members.get?_append, Members.get?_filter_none _ (by decide),
    Members.get?_cons, if_pos rfl]
  rfl

/-- Whether a keyword moves into the branches when the types of its node are split. -/
def moves (name : String) : Bool := !wrapperKeywords.contains name && name != "type"

theorem branch_eq (members : Members) (type : Json) :
    branch members type =
      .object (("type", type) :: members.filter fun entry => moves entry.1) := rfl

theorem branch_get? (members : Members) (type : Json) {name : String} (moved : moves name = true) :
    (branch members type).get? name = (Json.object members).get? name := by
  have other : "type" ≠ name := by
    rintro rfl
    revert moved
    decide
  rw [branch_eq, Json.get?_object, Members.get?_cons, if_neg other, Members.get?_filter _ moved]
  rfl

theorem branch_type (members : Members) (type : Json) :
    (branch members type).get? "type" = some type := by
  rw [branch_eq, Json.get?_object, Members.get?_cons, if_pos rfl]

theorem branch_get?_none (members : Members) (type : Json) {name : String}
    (wrapper : name ∈ wrapperKeywords) : (branch members type).get? name = none := by
  have other : "type" ≠ name := by
    rintro rfl
    revert wrapper
    decide
  have stays : moves name = false := by
    rw [moves, List.contains_iff_mem.mpr wrapper]
    rfl
  rw [branch_eq, Json.get?_object, Members.get?_cons, if_neg other,
    Members.get?_filter_none _ stays]

theorem branch_nodup {members : Members} (distinct : (members.map (·.1)).Nodup) (type : Json) :
    (branch members type).names.Nodup := by
  refine List.nodup_cons.mpr ⟨?_, distinct.sublist (List.filter_sublist.map _)⟩
  intro again
  obtain ⟨entry, member, same⟩ := List.mem_map.mp again
  have moved := (List.mem_filter.mp member).2
  dsimp only at same
  rw [same] at moved
  cases moved

theorem wrapped_nodup {members : Members} (distinct : (members.map (·.1)).Nodup)
    (branches : List Json) : (wrapped members branches).names.Nodup := by
  change (List.map _ (_ ++ _)).Nodup
  rw [List.map_append, List.nodup_append]
  refine ⟨distinct.sublist (List.filter_sublist.map _), List.pairwise_singleton _ _, ?_⟩
  intro name member other single
  rw [List.map_cons, List.map_nil, List.mem_singleton] at single
  subst single
  rintro rfl
  obtain ⟨entry, member, same⟩ := List.mem_map.mp member
  have wrapper := (List.mem_filter.mp member).2
  dsimp only at same
  rw [same] at wrapper
  revert wrapper
  decide

theorem wrapped_get? (members : Members) (branches : List Json) {name : String}
    (wrapper : name ∈ wrapperKeywords) :
    (wrapped members branches).get? name = Members.get? members name := by
  have other : "anyOf" ≠ name := by
    rintro rfl
    revert wrapper
    decide
  rw [wrapped, Json.get?_object, Members.get?_append,
    Members.get?_filter _ (List.contains_iff_mem.mpr wrapper), Members.get?_cons, if_neg other,
    Members.get?_nil, Option.or_none]

theorem splitTypes_eq {members : Members} {types : List Json}
    (found : (Json.object members).arrayAt? "type" = some types) :
    splitTypes (.object members) = wrapped members (types.map (branch members)) := by
  simp only [splitTypes, found]
  rfl

theorem splitTypes_get? (node : Json) {name : String} (wrapper : name ∈ wrapperKeywords) :
    (splitTypes node).get? name = node.get? name := by
  cases node with
  | object members =>
    cases found : (Json.object members).arrayAt? "type" with
    | some types => exact splitTypes_eq found ▸ wrapped_get? members _ wrapper
    | none => simp only [splitTypes, found]
  | null | bool | number | string | array => rfl

theorem typeUnion_keeps {name : String} (wrapper : name ∈ wrapperKeywords) :
    typeUnion.Keeps name :=
  fun node _ _ => splitTypes_get? node wrapper

theorem inclusiveBound_keeps {rule exclusive inclusive name : String} {rounding : Rounding}
    {step : Int} (other : name ≠ exclusive ∧ name ≠ inclusive) :
    (inclusiveBound rule exclusive inclusive rounding step).Keeps name := by
  intro node _ _
  simp only [inclusiveBound]
  split
  · rw [Json.get?_insert_ne _ _ other.2.symm, Json.get?_erase_ne _ other.1.symm]
  · rfl

end Spelling

namespace Collapse

theorem singleType_keeps {name : String} (other : name ≠ "type") : singleType.Keeps name := by
  intro node _ _
  simp only [singleType]
  split
  · exact node.get?_insert_ne _ other.symm
  · rfl

theorem constInEnum_keeps {name : String} (other : name ∉ ["const", "enum"]) :
    constInEnum.Keeps name :=
  fun node _ _ => Spelling.enumOfConst_get? node other

theorem collapse_get? (node : Json) {names : List String} {keyword name : String} (value : Json)
    (other : name ∉ keyword :: names) :
    ((node.eraseAll names).insert keyword value).get? name = node.get? name := by
  rw [List.mem_cons, not_or] at other
  rw [Json.get?_insert_ne _ _ (Ne.symm other.1), Json.get?_eraseAll_of_notMem _ other.2]

theorem equalBounds_keeps {name : String}
    (other : name ∉ ["const", "type", "minimum", "maximum", "multipleOf"]) :
    equalBounds.Keeps name := by
  intro node _ _
  simp only [equalBounds]
  split
  · exact collapse_get? node _ other
  · rfl

theorem emptyString_keeps {name : String} (other : name ∉ ["const", "maxLength", "minLength"]) :
    emptyString.Keeps name :=
  fun node _ _ => collapse_get? node _ other

theorem emptyArray_keeps {name : String}
    (other : name ∉ ["const", "maxItems", "minItems", "items", "prefixItems", "uniqueItems",
      "unevaluatedItems"]) : emptyArray.Keeps name :=
  fun node _ _ => collapse_get? node _ other

theorem emptyObject_keeps {name : String}
    (other : name ∉ ["const", "maxProperties", "minProperties", "required", "properties",
      "patternProperties", "additionalProperties", "propertyNames", "dependentRequired",
      "dependentSchemas", "unevaluatedProperties"]) : emptyObject.Keeps name :=
  fun node _ _ => collapse_get? node _ other

theorem requiredDependencies_keeps {name : String}
    (other : name ∉ ["required", "dependentRequired"]) : requiredDependencies.Keeps name := by
  simp only [List.mem_cons, List.not_mem_nil, or_false, not_or] at other
  intro node _ _
  simp only [requiredDependencies]
  split
  · rw [Json.get?_insert_ne _ _ (Ne.symm other.1), Json.get?_insert_ne _ _ (Ne.symm other.2)]
  · rfl

theorem requiredCount_keeps {name : String} (other : name ≠ "minProperties") :
    requiredCount.Keeps name := by
  intro node _ _
  simp only [requiredCount]
  split
  · exact node.get?_insert_ne _ other.symm
  · rfl

theorem duplicates_keeps {rule keyword vocabulary name : String} (other : name ≠ keyword) :
    (duplicates rule keyword vocabulary).Keeps name := by
  intro node _ _
  simp only [duplicates]
  split
  · exact node.get?_insert_ne _ other.symm
  · rfl

theorem integralBound_keeps {rule keyword name : String} {rounding : Rounding}
    (other : name ≠ keyword) : (integralBound rule keyword rounding).Keeps name := by
  intro node _ _
  simp only [integralBound]
  split
  · exact node.get?_insert_ne _ other.symm
  · rfl

end Collapse

namespace Pruning

theorem dropInapplicable_keeps {type : InstanceType} {family : Family} {name : String}
    (other : name ∉ Keyword.inapplicable type family.vocabularies) :
    (dropInapplicable type family).Keeps name :=
  fun node _ _ => node.get?_eraseAll_of_notMem other

end Pruning

namespace Defaults

theorem allTypes_keeps {name : String} (other : name ≠ "type") : allTypes.Keeps name :=
  fun node _ _ => node.get?_insert_ne _ other.symm

theorem default_keeps {rule vocabulary keyword name : String} {type : InstanceType} {value : Json}
    (other : name ≠ keyword) : (default rule type vocabulary keyword value).Keeps name :=
  fun node _ _ => node.get?_insert_ne _ other.symm

end Defaults

end SchemaPack
