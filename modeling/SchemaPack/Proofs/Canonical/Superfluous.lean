import SchemaPack.Canonical.Redundancy
import SchemaPack.Proofs.Schema.Evaluation

namespace SchemaPack

namespace Meaning

variable {meaning : Meaning} {node value : Json}

/-- An assertion that holds where the rest does can be left out, if nothing looks at it. -/
theorem evaluate_erase {name : String} (object : node.isObject = true)
    (plain : name ∉ Keyword.unevaluated) (same : (node.eraseAll [name]).siblings = node.siblings)
    (idle : ∀ content, node.get? name = some content → ∃ valid,
      meaning.outcome node.siblings content value name = .assertion valid ∧
        ((meaning.evaluated (node.erase name) value).valid → valid)) :
    meaning.evaluate (node.erase name) value = meaning.evaluate node value := by
  show meaning.evaluate (node.eraseAll [name]) value = _
  apply evaluate_eraseAll object
  · rintro keyword listed erased
    exact plain (List.mem_singleton.mp erased ▸ listed)
  apply evaluated_eraseAll
  · intro other content _ _
    exact congrArg (meaning.outcome · content value other) same
  · intro holds other erased content found
    cases List.mem_singleton.mp erased
    obtain ⟨valid, asserted, implied⟩ := idle content found
    rw [asserted]
    exact implied holds
  · intro other erased content found
    cases List.mem_singleton.mp erased
    obtain ⟨valid, asserted, _⟩ := idle content found
    exact ⟨valid, asserted⟩

theorem siblings_eraseAll {names : List String}
    (unread : ∀ name ∈ names, name ∉ Siblings.keywords) :
    (node.eraseAll names).siblings = node.siblings := by
  apply Json.siblings_congr
  intro keyword listed
  apply node.get?_eraseAll_of_notMem
  exact fun erased => unread keyword erased listed

theorem siblings_erase_if :
    (node.eraseAll ["if"]).siblings = { node.siblings with test := none } := by
  simp [Json.siblings, Json.namesAt, Json.numberAt?, Json.arrayAt?, Json.objectAt?,
    Json.get?_eraseAll]

theorem siblings_erase_minContains :
    (node.eraseAll ["minContains"]).siblings = { node.siblings with leastMatches := none } := by
  simp [Json.siblings, Json.namesAt, Json.numberAt?, Json.arrayAt?, Json.objectAt?,
    Json.get?_eraseAll]

theorem siblings_erase_patternProperties
    (empty : node.get? "patternProperties" = some (.object [])) :
    (node.eraseAll ["patternProperties"]).siblings = node.siblings := by
  simp [Json.siblings, Json.namesAt, Json.numberAt?, Json.arrayAt?, Json.objectAt?,
    Json.get?_eraseAll, empty, Json.members?]

theorem under_false {condition : Prop} (never : ¬condition) (outcome : Evaluation) :
    outcome.under condition = .assertion True := by
  ext <;> simp [Evaluation.under, Evaluation.assertion, never]

end Meaning

namespace Redundancy

variable {meaning : Meaning} {node value : Json} {context : Context}

theorem withoutCompanion_condition {name vocabulary keyword companion : String}
    (condition : (withoutCompanion name vocabulary keyword companion).condition node context =
      true) : node.isObject = true ∧ node.get? companion = none := by
  simp only [withoutCompanion, Bool.and_eq_true, Bool.not_eq_true', Json.contains_eq,
    Option.isSome_iff_exists, Option.isSome_eq_false_iff, Option.isNone_iff_eq_none] at condition
  obtain ⟨⟨_, content, found⟩, alone⟩ := condition
  exact ⟨Json.isObject_of_get? found, alone⟩

theorem maxContainsWithoutContains_evaluate
    (condition : maxContainsWithoutContains.condition node context = true) :
    meaning.evaluate (maxContainsWithoutContains.transform node) value =
      meaning.evaluate node value := by
  obtain ⟨object, alone⟩ := withoutCompanion_condition condition
  have none_contained : node.siblings.contained = none := alone
  apply Meaning.evaluate_erase object (by decide)
  · exact Meaning.siblings_eraseAll (by decide)
  · intro content _
    refine ⟨_, rfl, ?_⟩
    simp [none_contained]

theorem minContainsWithoutContains_evaluate
    (condition : minContainsWithoutContains.condition node context = true) :
    meaning.evaluate (minContainsWithoutContains.transform node) value =
      meaning.evaluate node value := by
  obtain ⟨object, alone⟩ := withoutCompanion_condition condition
  have none_contained : node.siblings.contained = none := alone
  show meaning.evaluate (node.eraseAll ["minContains"]) value = _
  apply Meaning.evaluate_eraseAll object (by decide)
  apply Meaning.evaluated_eraseAll
  · intro name content found _
    rw [Meaning.siblings_erase_minContains]
    apply Meaning.outcome_leastMatches
    rintro rfl
    rw [alone] at found
    cases found
  · intro _ name erased content _
    cases List.mem_singleton.mp erased
    simp [Meaning.outcome, Evaluation.assertion, none_contained]
  · intro name erased content _
    cases List.mem_singleton.mp erased
    exact ⟨_, rfl⟩

theorem ncard_accepted_le (meaning : Meaning) (content value : Json) :
    (meaning.accepted content value).ncard ≤ value.elements.length := by
  have inside : meaning.accepted content value ⊆ Finset.range value.elements.length := by
    rintro index ⟨item, found, _⟩
    simpa using (List.getElem?_eq_some_iff.mp found).1
  calc (meaning.accepted content value).ncard
      ≤ (Finset.range value.elements.length : Set Nat).ncard :=
        Set.ncard_le_ncard inside (Finset.finite_toSet _)
    _ = value.elements.length := by rw [Set.ncard_coe_finset, Finset.card_range]

theorem numbers_of_condition (condition : maxContainsAboveMaxItems.condition node context = true) :
    ∃ matched items, node.numberAt? "maxContains" = some matched ∧
      node.numberAt? "maxItems" = some items := by
  simp only [maxContainsAboveMaxItems, Bool.and_eq_true] at condition
  cases most : node.numberAt? "maxContains" with
  | none => simp [most] at condition
  | some matched =>
    cases longest : node.numberAt? "maxItems" with
    | none => simp [most, longest] at condition
    | some items => exact ⟨matched, items, rfl, rfl⟩

theorem maxContainsAboveMaxItems_evaluate {matched items : Number}
    (most : node.numberAt? "maxContains" = some matched)
    (longest : node.numberAt? "maxItems" = some items) (ordered : items.exact ≤ matched.exact) :
    meaning.evaluate (maxContainsAboveMaxItems.transform node) value =
      meaning.evaluate node value := by
  have found := Json.get?_of_numberAt? most
  have present := Json.get?_of_numberAt? longest
  apply Meaning.evaluate_erase (Json.isObject_of_get? found) (by decide)
  · exact Meaning.siblings_eraseAll (by decide)
  · intro content same
    cases found.symm.trans same
    refine ⟨_, rfl, ?_⟩
    rintro valid test _ elements bound rfl same
    cases same
    have left : (node.erase "maxContains").get? "maxItems" = some (.number items) := by
      rw [node.get?_erase_ne (by decide), present]
    have short := valid "maxItems" _ left (by decide) elements items rfl rfl
    have fewer := ncard_accepted_le meaning test (.array elements)
    have unit := Binary64.one_pos
    calc ((meaning.accepted test (.array elements)).ncard : Int) * Binary64.one
        ≤ elements.length * Binary64.one := by
          apply Int.mul_le_mul_of_nonneg_right _ (Int.le_of_lt unit)
          exact Int.ofNat_le.mpr fewer
      _ ≤ items.exact := short
      _ ≤ matched.exact := ordered

theorem elements_length_of_isShort {content : Json} (short : isShort content = true) :
    content.elements.length ≤ 1 := by
  cases content with
  | array items => simpa [isShort, Json.items?, Json.elements] using short
  | null | bool | number | string | object => exact Nat.zero_le 1

theorem elements_length_of_condition
    (condition : impliedUniqueItems.condition node context = true)
    (valid : (meaning.evaluated (node.erase "uniqueItems") value).valid) :
    value.elements.length ≤ 1 := by
  simp only [impliedUniqueItems, Bool.and_eq_true, Bool.or_eq_true] at condition
  have left : ∀ name content, node.get? name = some content → name ≠ "uniqueItems" →
      name ∉ Keyword.unevaluated →
        (meaning.outcome (node.erase "uniqueItems").siblings content value name).valid := by
    intro name content found apart plain
    apply valid name content _ plain
    rw [node.get?_erase_ne apart.symm, found]
  rcases condition.2 with (few | alone) | listed
  · obtain ⟨bound, given, fits⟩ := (Option.any_eq_true _ _).mp few
    simp only [Bool.and_eq_true] at fits
    obtain ⟨n, word, small⟩ := (Option.any_eq_true _ _).mp fits.2
    have whole := Number.exact_eq_of_isIntegral fits.1 .down
    rw [← toInt_of_word? word] at whole
    have short := left "maxItems" _ (Json.get?_of_numberAt? given) (by decide) (by decide)
    cases value with
    | array items =>
      have le : (items.length : Int) * Binary64.one ≤ bound.exact := short items bound rfl rfl
      rw [whole] at le
      have fewer := Int.le_of_mul_le_mul_right le Binary64.one_pos
      have one := of_decide_eq_true small
      show items.length ≤ 1
      omega
    | null | bool | number | string | object => exact Nat.zero_le 1
  · obtain ⟨content, found, short⟩ := (Option.any_eq_true _ _).mp alone
    have same : value.SameBy Number.exact content :=
      left "const" content found (by decide) (by decide)
    rw [same.elements_length]
    exact elements_length_of_isShort short
  · obtain ⟨choices, given, short⟩ := (Option.any_eq_true _ _).mp listed
    have found := Json.get?_of_arrayAt? given
    obtain ⟨choice, among, same⟩ := left "enum" _ found (by decide) (by decide) choices rfl
    rw [same.elements_length]
    exact elements_length_of_isShort (List.all_eq_true.mp short choice among)

theorem impliedUniqueItems_evaluate
    (condition : impliedUniqueItems.condition node context = true) :
    meaning.evaluate (impliedUniqueItems.transform node) value = meaning.evaluate node value := by
  have unique := condition
  simp only [impliedUniqueItems, Bool.and_eq_true] at unique
  obtain ⟨content, found, _⟩ := (Option.any_eq_true _ _).mp unique.1.2
  apply Meaning.evaluate_erase (Json.isObject_of_get? found) (by decide)
  · exact Meaning.siblings_eraseAll (by decide)
  · intro content _
    refine ⟨_, rfl, ?_⟩
    intro valid _
    have short := elements_length_of_condition condition valid
    rcases elements : value.elements with _ | ⟨item, _ | ⟨other, rest⟩⟩
    · exact .nil
    · exact List.pairwise_singleton _ _
    · simp [elements] at short

/-- The condition that an `if` is can be left out where nothing depends on its success. -/
theorem ifWithoutBranches_evaluate
    (condition : ifWithoutBranches.condition node context = true)
    (plain : node.containsAny Keyword.unevaluated = false) :
    (meaning.evaluate (ifWithoutBranches.transform node) value).valid ↔
      (meaning.evaluate node value).valid := by
  simp only [ifWithoutBranches, Bool.and_eq_true, Bool.not_eq_true'] at condition
  obtain ⟨content, found⟩ := Option.isSome_iff_exists.mp (node.contains_eq "if" ▸ condition.1.2)
  have object := Json.isObject_of_get? found
  have left : (node.eraseAll ["if"]).isObject = true := by rwa [Json.isObject_eraseAll]
  have quiet : (node.eraseAll ["if"]).containsAny Keyword.unevaluated = false := by
    rw [← plain]
    simp [Json.containsAny, Keyword.unevaluated, Json.contains_eq, node.get?_eraseAll_of_notMem]
  show (meaning.evaluate (node.eraseAll ["if"]) value).valid ↔ _
  rw [Meaning.evaluate_valid_iff left quiet, Meaning.evaluate_valid_iff object plain]
  apply Meaning.evaluated_valid_eraseAll
  · intro name content found _
    rw [Meaning.siblings_erase_if]
    apply Meaning.outcome_test
    intro branch
    have absent := List.any_eq_false.mp condition.2 name branch
    simp [Json.contains_eq, found] at absent
  · intro _ name erased content _
    cases List.mem_singleton.mp erased
    exact id

theorem branchesWithoutIf_evaluate
    (condition : branchesWithoutIf.condition node context = true) :
    meaning.evaluate (branchesWithoutIf.transform node) value = meaning.evaluate node value := by
  simp only [branchesWithoutIf, Bool.and_eq_true, Bool.not_eq_true', Json.contains_eq,
    Option.isSome_eq_false_iff, Option.isNone_iff_eq_none] at condition
  have none_tested : node.siblings.test = none := condition.1.2
  have silent : ∀ name ∈ ["then", "else"], ∀ content,
      meaning.outcome node.siblings content value name = .assertion True := by
    intro name branch content
    simp only [List.mem_cons, List.not_mem_nil, or_false] at branch
    rcases branch with rfl | rfl
    · exact Meaning.under_false (by simp [none_tested]) _
    · exact Meaning.under_false (by simp [none_tested]) _
  show meaning.evaluate (node.eraseAll ["then", "else"]) value = _
  apply Meaning.evaluate_eraseAll _ (by decide)
  · apply Meaning.evaluated_eraseAll
    · intro name content _ _
      rw [Meaning.siblings_eraseAll (by decide)]
    · intro _ name erased content _
      rw [silent name erased]
      trivial
    · intro name erased content _
      exact ⟨True, silent name erased content⟩
  · obtain ⟨name, _, present⟩ := List.any_eq_true.mp condition.2
    obtain ⟨content, found⟩ := Option.isSome_iff_exists.mp (node.contains_eq name ▸ present)
    exact Json.isObject_of_get? found

theorem emptyObject_condition {name vocabulary keyword : String}
    (condition : (emptyObject name vocabulary keyword).condition node context = true) :
    node.get? keyword = some (.object []) := by
  simp only [emptyObject, Bool.and_eq_true] at condition
  obtain ⟨members, given, empty⟩ := (Option.any_eq_true _ _).mp condition.2
  rw [Json.get?_of_objectAt? given, List.isEmpty_iff.mp empty]

theorem emptyPatternProperties_evaluate
    (condition : emptyPatternProperties.condition node context = true) :
    meaning.evaluate (emptyPatternProperties.transform node) value =
      meaning.evaluate node value := by
  have found := emptyObject_condition condition
  apply Meaning.evaluate_erase (Json.isObject_of_get? found) (by decide)
  · exact Meaning.siblings_erase_patternProperties found
  · intro content same
    cases found.symm.trans same
    refine ⟨True, ?_, fun _ => trivial⟩
    ext <;> simp [Meaning.outcome, Evaluation.assertion]

theorem emptyDependentRequired_evaluate
    (condition : emptyDependentRequired.condition node context = true) :
    meaning.evaluate (emptyDependentRequired.transform node) value =
      meaning.evaluate node value := by
  have found := emptyObject_condition condition
  apply Meaning.evaluate_erase (Json.isObject_of_get? found) (by decide)
  · exact Meaning.siblings_eraseAll (by decide)
  · intro content same
    cases found.symm.trans same
    refine ⟨_, rfl, ?_⟩
    simp

end Redundancy

open Redundancy

/-- Removing these keywords changes nothing, whatever stands beside them. But where `if` goes,
    nothing may depend on what it evaluated, and where `maxContains` goes, the bounds must have the
    order in which they compare as doubles. -/
theorem superfluous_sound (meaning : Meaning) (rule : Rule)
    (listed : rule ∈ [maxContainsWithoutContains, minContainsWithoutContains,
      maxContainsAboveMaxItems, impliedUniqueItems, ifWithoutBranches, branchesWithoutIf,
      emptyPatternProperties, emptyDependentRequired])
    (node : Json) (context : Context) (condition : rule.condition node context = true)
    (unused : rule = ifWithoutBranches → node.containsAny Keyword.unevaluated = false)
    (ordered : rule = maxContainsAboveMaxItems → ∀ matched items,
      node.numberAt? "maxContains" = some matched → node.numberAt? "maxItems" = some items →
        items.exact ≤ matched.exact) (value : Json) :
    (meaning.evaluate (rule.transform node) value).valid ↔ (meaning.evaluate node value).valid := by
  simp only [List.mem_cons, List.not_mem_nil, or_false] at listed
  rcases listed with rfl | rfl | rfl | rfl | rfl | rfl | rfl | rfl
  · rw [maxContainsWithoutContains_evaluate condition]
  · rw [minContainsWithoutContains_evaluate condition]
  · obtain ⟨matched, items, most, longest⟩ := numbers_of_condition condition
    rw [maxContainsAboveMaxItems_evaluate most longest (ordered rfl matched items most longest)]
  · rw [impliedUniqueItems_evaluate condition]
  · exact ifWithoutBranches_evaluate condition (unused rfl)
  · rw [branchesWithoutIf_evaluate condition]
  · rw [emptyPatternProperties_evaluate condition]
  · rw [emptyDependentRequired_evaluate condition]

theorem superfluous_sound_condition :
    let rule := ifWithoutBranches
    let node := Json.object [("if", .bool false), ("properties", .object [("a", .bool false)])]
    let context : Context :=
      ⟨Dialect.draft202012, Dialect.draft202012, [Vocabulary.applicator], .root⟩
    let value := Json.object [("a", .null)]
    rule ∈ [maxContainsWithoutContains, minContainsWithoutContains, maxContainsAboveMaxItems,
        impliedUniqueItems, ifWithoutBranches, branchesWithoutIf, emptyPatternProperties,
        emptyDependentRequired] ∧ rule.condition node context = true ∧
      (rule = ifWithoutBranches → node.containsAny Keyword.unevaluated = false) ∧
        (rule = maxContainsAboveMaxItems → ∀ matched items,
          node.numberAt? "maxContains" = some matched → node.numberAt? "maxItems" = some items →
            items.exact ≤ matched.exact) ∧
          ((Meaning.shallow.deeper.evaluate (rule.transform node) value).valid ↔
            (Meaning.shallow.deeper.evaluate node value).valid) := by
  intro rule node context value
  have listed : rule ∈ [maxContainsWithoutContains, minContainsWithoutContains,
      maxContainsAboveMaxItems, impliedUniqueItems, ifWithoutBranches, branchesWithoutIf,
      emptyPatternProperties, emptyDependentRequired] := List.mem_of_getElem? (i := 4) rfl
  have condition : rule.condition node context = true := by decide +kernel
  have unused : rule = ifWithoutBranches → node.containsAny Keyword.unevaluated = false :=
    fun _ => by decide
  have ordered : rule = maxContainsAboveMaxItems → ∀ matched items,
      node.numberAt? "maxContains" = some matched → node.numberAt? "maxItems" = some items →
        items.exact ≤ matched.exact := by
    rintro _ matched items ⟨⟩
  exact ⟨listed, condition, unused, ordered,
    superfluous_sound _ rule listed node context condition unused ordered value⟩

/-- What `if` has evaluated is left to `unevaluatedProperties` once it is removed. -/
theorem ifWithoutBranches_refuses :
    let node := Json.object [("if", .object [("properties", .object [("a", .bool true)])]),
      ("unevaluatedProperties", .bool false)]
    let context : Context := ⟨Dialect.draft202012, Dialect.draft202012,
      [Vocabulary.core, Vocabulary.applicator, Vocabulary.unevaluated, Vocabulary.validation,
        Vocabulary.metaData, Vocabulary.formatAnnotated, Vocabulary.content], .root⟩
    let value := Json.object [("a", .number (.integer 1))]
    ifWithoutBranches.condition node context = true ∧
      (Meaning.shallow.deeper.evaluate node value).valid ∧
        ¬(Meaning.shallow.deeper.evaluate (ifWithoutBranches.transform node) value).valid := by
  intro node context value
  let meaning := Meaning.shallow.deeper
  let test := Json.object [("properties", .object [("a", .bool true)])]
  have tested : (meaning.subschema test value).valid := by
    refine ⟨nofun, ?_, nofun, nofun⟩
    intro name content found _
    have listed := Json.mem_entries_of_get? found
    simp only [test, Json.entries_object, List.mem_singleton, Prod.mk.injEq] at listed
    obtain ⟨rfl, rfl⟩ := listed
    intro entry among _ _ _
    simp only [Json.entries_object, List.mem_singleton] at among
    simp [among, Meaning.shallow, Evaluation.assertion]
  have seen : "a" ∈ (meaning.subschema test value).properties :=
    .inl ⟨"properties", _, rfl, by decide, by decide, by decide⟩
  refine ⟨by decide +kernel, ⟨nofun, ?_, ?_, nofun⟩, ?_⟩
  · intro name content found plain
    have listed := Json.mem_entries_of_get? found
    simp only [node, Json.entries_object, List.mem_cons, List.not_mem_nil, or_false,
      Prod.mk.injEq] at listed
    rcases listed with ⟨rfl, rfl⟩ | ⟨rfl, rfl⟩
    · exact id
    · exact absurd (by decide) plain
  · intro schema _ member among unseen
    simp only [value, Json.entries_object, List.mem_singleton] at among
    subst among
    exact absurd ⟨"if", test, rfl, by decide, tested, seen⟩ unseen
  · rintro ⟨_, _, rest, _⟩
    have unseen :
        "a" ∉ (meaning.evaluated (ifWithoutBranches.transform node) value).properties := by
      rintro ⟨name, content, found, plain, _⟩
      have left := Json.mem_entries_of_get? found
      have listed : (name, content) ∈ [("unevaluatedProperties", Json.bool false)] := left
      simp only [List.mem_singleton, Prod.mk.injEq] at listed
      exact plain (listed.1 ▸ by decide)
    have refused := rest (.bool false) rfl ("a", _) List.mem_cons_self unseen
    exact refused.1 rfl

end SchemaPack
