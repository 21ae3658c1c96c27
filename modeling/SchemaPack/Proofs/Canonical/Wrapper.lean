import SchemaPack.Proofs.Canonical.Keeps

namespace SchemaPack

namespace Spelling

theorem ne_of_wrapper {name keyword : String} (wrapper : name ∈ wrapperKeywords)
    (other : keyword ∉ wrapperKeywords) : name ≠ keyword := by
  rintro rfl
  exact other wrapper

theorem notMem_of_wrapper {name : String} {keywords : List String}
    (wrapper : name ∈ wrapperKeywords) (others : ∀ keyword ∈ keywords, keyword ∉ wrapperKeywords) :
    name ∉ keywords :=
  fun listed => others name listed wrapper

end Spelling

open Spelling

variable {name : String} (wrapper : name ∈ wrapperKeywords)

include wrapper

theorem Redundancy.rules_keep_wrapper : ∀ rule ∈ Redundancy.rules, rule.Keeps name := by
  have asserts_nothing : ∀ keyword ∈ Keyword.all, keyword.name = name →
      keyword.vocabulary ≠ Vocabulary.validation := by
    have table : ∀ keyword ∈ Keyword.all, keyword.name ∈ wrapperKeywords →
        keyword.vocabulary ≠ Vocabulary.validation := by
      decide +kernel
    rintro keyword listed rfl
    exact table keyword listed wrapper
  have ne := fun keyword => @ne_of_wrapper name keyword wrapper
  have notMem := fun keywords => @notMem_of_wrapper name keywords wrapper
  simp only [Redundancy.rules, List.forall_mem_cons]
  exact ⟨withoutCompanion_keeps (ne _ (by decide)), withoutCompanion_keeps (ne _ (by decide)),
    withoutCompanion_keeps (ne _ (by decide)), maxContainsAboveMaxItems_keeps (ne _ (by decide)),
    impliedUniqueItems_keeps (ne _ (by decide)), ifWithoutBranches_keeps (ne _ (by decide)),
    branchesWithoutIf_keeps (notMem _ (by decide)), emptyObject_keeps (ne _ (by decide)),
    emptyObject_keeps (ne _ (by decide)),
    tighterBound_keeps ⟨ne _ (by decide), ne _ (by decide)⟩,
    tighterBound_keeps ⟨ne _ (by decide), ne _ (by decide)⟩,
    constWithType_keeps (ne _ (by decide)), enumWithType_keeps (ne _ (by decide)),
    idleAssertionsBesideEnum_keeps asserts_nothing, List.forall_mem_nil _⟩

theorem Spelling.rules_keep_wrapper : ∀ rule ∈ Spelling.rules, rule.Keeps name := by
  have ne := fun keyword => @ne_of_wrapper name keyword wrapper
  have notMem := fun keywords => @notMem_of_wrapper name keywords wrapper
  simp only [Spelling.rules, List.forall_mem_cons]
  exact ⟨trueSchema_keeps _, constAsEnum_keeps (notMem _ (by decide)),
    booleanAsEnum_keeps (notMem _ (by decide)), nullAsConst_keeps (notMem _ (by decide)),
    typeUnion_keeps wrapper, inclusiveBound_keeps ⟨ne _ (by decide), ne _ (by decide)⟩,
    inclusiveBound_keeps ⟨ne _ (by decide), ne _ (by decide)⟩, List.forall_mem_nil _⟩

theorem Collapse.rules_keep_wrapper : ∀ rule ∈ Collapse.rules, rule.Keeps name := by
  have ne := fun keyword => @ne_of_wrapper name keyword wrapper
  have notMem := fun keywords => @notMem_of_wrapper name keywords wrapper
  simp only [Collapse.rules, List.forall_mem_cons]
  exact ⟨singleType_keeps (ne _ (by decide)), constInEnum_keeps (notMem _ (by decide)),
    equalBounds_keeps (notMem _ (by decide)), emptyString_keeps (notMem _ (by decide)),
    emptyArray_keeps (notMem _ (by decide)), emptyObject_keeps (notMem _ (by decide)),
    requiredDependencies_keeps (notMem _ (by decide)), requiredCount_keeps (ne _ (by decide)),
    duplicates_keeps (ne _ (by decide)), duplicates_keeps (ne _ (by decide)),
    duplicates_keeps (ne _ (by decide)), duplicates_keeps (ne _ (by decide)),
    integralBound_keeps (ne _ (by decide)), integralBound_keeps (ne _ (by decide)),
    List.forall_mem_nil _⟩

omit wrapper in
theorem Pruning.inapplicable_not_wrapper :
    ∀ type ∈ InstanceType.all, ∀ family ∈ families,
      ∀ keyword ∈ Keyword.inapplicable type family.vocabularies, keyword ∉ wrapperKeywords := by
  decide +kernel

theorem Pruning.rules_keep_wrapper : ∀ rule ∈ Pruning.rules, rule.Keeps name := by
  intro rule listed
  obtain ⟨type, known, listed⟩ := List.mem_flatMap.mp listed
  obtain ⟨family, chosen, rfl⟩ := List.mem_map.mp listed
  have family_known := (List.mem_filter.mp chosen).1
  apply dropInapplicable_keeps
  exact notMem_of_wrapper wrapper (inapplicable_not_wrapper type known family family_known)

theorem Defaults.rules_keep_wrapper : ∀ rule ∈ Defaults.rules, rule.Keeps name := by
  have ne := fun keyword => @ne_of_wrapper name keyword wrapper
  simp only [Defaults.rules, List.forall_mem_cons]
  exact ⟨allTypes_keeps (ne _ (by decide)), default_keeps (ne _ (by decide)),
    default_keeps (ne _ (by decide)), default_keeps (ne _ (by decide)),
    default_keeps (ne _ (by decide)), default_keeps (ne _ (by decide)),
    default_keeps (ne _ (by decide)), List.forall_mem_nil _⟩

/-- No canonical rule moves, drops or rewrites a keyword that stays on a node when its types are
    split. -/
theorem canonicalRules_keep_wrapper : ∀ rule ∈ canonicalRules, rule.Keeps name := by
  intro rule listed
  simp only [canonicalRules, List.mem_append] at listed
  rcases listed with (((listed | listed) | listed) | listed) | listed
  · exact Redundancy.rules_keep_wrapper wrapper rule listed
  · exact Spelling.rules_keep_wrapper wrapper rule listed
  · exact Collapse.rules_keep_wrapper wrapper rule listed
  · exact Pruning.rules_keep_wrapper wrapper rule listed
  · exact Defaults.rules_keep_wrapper wrapper rule listed

end SchemaPack
