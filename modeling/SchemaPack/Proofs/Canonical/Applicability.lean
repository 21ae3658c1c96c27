import SchemaPack.Proofs.Canonical.Keeps
import SchemaPack.Proofs.Json.Entries
import SchemaPack.Proofs.Schema.Assertion

namespace SchemaPack

/-- A meaning of keywords: which values satisfy a keyword that has some content. -/
abbrev Reading := String → Json → Json → Prop

/-- A reading in which a keyword asks nothing of values to whose types it does not apply. Types
    and listed values are read as the rules read them. -/
structure Reading.RespectsTypes (reading : Reading) : Prop where
  elsewhere : ∀ keyword ∈ Keyword.all, ∀ content value,
    keyword.appliesTo value.typeOf = false → reading keyword.name content value
  type : ∀ (type : InstanceType) value,
    reading "type" (.string type.name) value ↔ value.isInstanceOf type = true
  enum : ∀ choices value,
    reading "enum" (.array choices) value ↔ ∃ choice ∈ choices, choice.equal value = true

/-- Whether a value satisfies all the keywords of a node. -/
def Reading.Satisfies (reading : Reading) (node value : Json) : Prop :=
  ∀ entry ∈ node.entries, reading entry.1 entry.2 value

theorem Reading.satisfies_eraseAll {reading : Reading} {node value : Json} {names : List String}
    (implied : reading.Satisfies (node.eraseAll names) value →
      ∀ name ∈ names, ∀ content, reading name content value) :
    reading.Satisfies node value ↔ reading.Satisfies (node.eraseAll names) value := by
  constructor
  · intro satisfied entry left
    exact satisfied entry (Json.mem_entries_eraseAll.mp left).1
  · intro satisfied entry listed
    by_cases erased : entry.1 ∈ names
    · exact implied satisfied entry.1 erased entry.2
    · exact satisfied entry (Json.mem_entries_eraseAll.mpr ⟨listed, erased⟩)

theorem InstanceType.name_injective {type other : InstanceType} (same : type.name = other.name) :
    type = other := by
  have distinct : ∀ a ∈ all, ∀ b ∈ all, a.name = b.name → a = b := by decide
  apply distinct type _ other _ same
  · cases type <;> decide
  · cases other <;> decide

namespace Json

theorem typeOf_widen_of_isInstanceOf {value : Json} {type : InstanceType}
    (instance_of : value.isInstanceOf type = true) : value.typeOf.widen = type.widen := by
  cases type with
  | integer =>
    cases value with
    | number x => simp only [typeOf, show x.isIntegral = true from instance_of, if_true]
    | null | bool | string | array | object => cases instance_of
  | number =>
    cases value with
    | number x => cases whole : x.isIntegral <;> simp [typeOf, whole, InstanceType.widen]
    | null | bool | string | array | object => cases instance_of
  | null | boolean | string | array | object =>
    rw [beq_iff_eq.mp (instance_of : (value.typeOf == _) = true)]

def typeOfRank : Nat → InstanceType
  | 0 => .null
  | 1 => .boolean
  | 2 => .number
  | 3 => .string
  | 4 => .array
  | _ => .object

theorem typeOf_widen_eq (value : Json) : value.typeOf.widen = typeOfRank value.rank := by
  cases value with
  | number x =>
    cases whole : x.isIntegral <;> simp [typeOf, whole, InstanceType.widen, rank, typeOfRank]
  | null | bool | string | array | object => rfl

theorem typeOf_widen_of_equal {a b : Json} (same : a.equal b = true) :
    a.typeOf.widen = b.typeOf.widen := by
  have ranks := rank_eq_of_compareSorted (beq_iff_eq.mp same)
  rw [rank_sortMembers, rank_sortMembers] at ranks
  rw [typeOf_widen_eq, typeOf_widen_eq, ranks]

end Json

theorem Keyword.appliesTo_congr {type other : InstanceType} (same : type.widen = other.widen)
    (keyword : Keyword) : keyword.appliesTo type = keyword.appliesTo other := by
  simp only [appliesTo, same]

/-- What a reading asks by way of a keyword that does not apply to a type is satisfied by all
    values of that type. -/
theorem Reading.RespectsTypes.of_widen {reading : Reading} (respects : reading.RespectsTypes)
    {keyword : Keyword} (listed : keyword ∈ Keyword.all) {value : Json} {type : InstanceType}
    (same : value.typeOf.widen = type.widen) (idle : keyword.appliesTo type = false)
    (content : Json) : reading keyword.name content value := by
  apply respects.elsewhere keyword listed
  rw [Keyword.appliesTo_congr same, idle]

namespace Pruning

theorem keyword_of_mem_inapplicable : ∀ type ∈ InstanceType.all, ∀ family ∈ families,
    ∀ name ∈ Keyword.inapplicable type family.vocabularies, name ∉ ["type", "enum"] ∧
      ∃ keyword ∈ Keyword.all, keyword.name = name ∧ keyword.appliesTo type = false := by
  decide +kernel

theorem typeOf_widen_of_pinned {reading : Reading} (respects : reading.RespectsTypes)
    {node value : Json} {type : InstanceType} (pinned : pinnedType? node = some type)
    (typed : ∀ content, node.get? "type" = some content → reading "type" content value)
    (listed : ∀ content, node.get? "enum" = some content → reading "enum" content value) :
    value.typeOf.widen = type.widen := by
  unfold pinnedType? at pinned
  split at pinned
  · rename_i declared known
    cases pinned
    have named := Json.hasType_iff.mp (beq_iff_eq.mpr known)
    exact Json.typeOf_widen_of_isInstanceOf ((respects.type type value).mp (typed _ named))
  · split at pinned
    · cases pinned
    · split at pinned
      · cases pinned
      · cases pinned
      · rename_i values _ found
        have member := (respects.enum values value).mp (listed _ (Json.get?_of_arrayAt? found))
        obtain ⟨choice, among, same⟩ := member
        rw [← Json.typeOf_widen_of_equal same]
        split at pinned
        · rename_i nulls
          cases pinned
          have null := List.all_eq_true.mp nulls choice among
          cases choice <;> cases null
          rfl
        · split at pinned
          · rename_i booleans
            cases pinned
            have boolean := List.all_eq_true.mp booleans choice among
            cases choice <;> cases boolean
            rfl
          · cases pinned

theorem dropInapplicable_sound {reading : Reading} (respects : reading.RespectsTypes)
    {type : InstanceType} {family : Family} (known : type ∈ InstanceType.all)
    (listed : family ∈ families) {node : Json} {context : Context}
    (condition : (dropInapplicable type family).condition node context = true) (value : Json) :
    reading.Satisfies node value ↔
      reading.Satisfies ((dropInapplicable type family).transform node) value := by
  simp only [dropInapplicable, Bool.and_eq_true, beq_iff_eq] at condition
  have dropped := keyword_of_mem_inapplicable type known family listed
  apply Reading.satisfies_eraseAll
  intro satisfied name erased content
  have kept : ∀ plain ∈ ["type", "enum"], ∀ found, node.get? plain = some found →
      reading plain found value := by
    intro plain constrains found present
    have apart : plain ∉ Keyword.inapplicable type family.vocabularies :=
      fun inside => (dropped plain inside).1 constrains
    exact satisfied (plain, found)
      (Json.mem_entries_eraseAll.mpr ⟨Json.mem_entries_of_get? present, apart⟩)
  have same := typeOf_widen_of_pinned respects condition.1.2 (kept "type" (by decide))
    (kept "enum" (by decide))
  obtain ⟨_, keyword, tabled, rfl, idle⟩ := dropped name erased
  exact respects.of_widen tabled same idle content

end Pruning

namespace Redundancy

theorem keyword_of_mem_idleBesideEnum {node : Json} {name : String}
    (idle : name ∈ idleBesideEnum node) : ∃ values, node.get? "enum" = some (.array values) ∧
      ∃ keyword ∈ Keyword.all, keyword.name = name ∧
        ∀ choice ∈ values, keyword.appliesTo choice.typeOf = false := by
  unfold idleBesideEnum at idle
  split at idle
  · cases idle
  · rename_i values found
    split at idle
    · cases idle
    · obtain ⟨keyword, listed, named⟩ := List.mem_map.mp idle
      obtain ⟨listed, chosen⟩ := List.mem_filter.mp listed
      simp only [Bool.and_eq_true, Bool.not_eq_true', List.any_eq_false, List.mem_map,
        forall_exists_index, and_imp, forall_apply_eq_imp_iff₂, Bool.not_eq_true] at chosen
      exact ⟨values, Json.get?_of_arrayAt? found, keyword, listed, named, chosen.2⟩

theorem idleAssertionsBesideEnum_sound {reading : Reading} (respects : reading.RespectsTypes)
    (node value : Json) : reading.Satisfies node value ↔
      reading.Satisfies (idleAssertionsBesideEnum.transform node) value := by
  apply Reading.satisfies_eraseAll
  intro satisfied name erased content
  obtain ⟨values, found, keyword, tabled, rfl, idle⟩ := keyword_of_mem_idleBesideEnum erased
  have apart : "enum" ∉ idleBesideEnum node := notMem_idleBesideEnum node (by decide)
  have member := satisfied ("enum", .array values)
    (Json.mem_entries_eraseAll.mpr ⟨Json.mem_entries_of_get? found, apart⟩)
  obtain ⟨choice, among, same⟩ := (respects.enum values value).mp member
  exact respects.of_widen tabled (Json.typeOf_widen_of_equal same).symm (idle choice among)
    content

end Redundancy

/-- Pruning is sound for every meaning of the keywords that respects types: a value satisfies all
    keywords of a node if and only if it satisfies those that are left. -/
theorem pruning_sound (reading : Reading) (respects : reading.RespectsTypes) (rule : Rule)
    (listed : rule ∈ Redundancy.idleAssertionsBesideEnum :: Pruning.rules) (node : Json)
    (context : Context) (condition : rule.condition node context = true) (value : Json) :
    reading.Satisfies node value ↔ reading.Satisfies (rule.transform node) value := by
  rcases List.mem_cons.mp listed with rfl | listed
  · exact Redundancy.idleAssertionsBesideEnum_sound respects node value
  · obtain ⟨type, known, listed⟩ := List.mem_flatMap.mp listed
    obtain ⟨family, chosen, rfl⟩ := List.mem_map.mp listed
    exact Pruning.dropInapplicable_sound respects known (List.mem_filter.mp chosen).1 condition
      value

theorem pruning_sound_integer :
    let reading : Reading := fun name content value =>
      match name with
      | "type" => ∀ type : InstanceType, content = .string type.name →
          value.isInstanceOf type = true
      | "enum" => ∀ choices, content = .array choices →
          ∃ choice ∈ choices, choice.equal value = true
      | "maximum" => Assertion.maximum.Holds Number.exact content value
      | "maxLength" => Assertion.maxLength.Holds Number.exact content value
      | _ => True
    let rule := Pruning.dropInapplicable .integer ⟨"validation", [Vocabulary.validation]⟩
    let node := Json.object [("type", .string "integer"), ("maxLength", .number (.integer 1)),
      ("maximum", .number (.integer 3))]
    let context : Context :=
      ⟨Dialect.draft202012, Dialect.draft202012, [Vocabulary.validation], .root⟩
    let two := Json.number (.real ⟨false, 4503599627370496, 1023, by decide⟩)
    reading.RespectsTypes ∧ rule ∈ Redundancy.idleAssertionsBesideEnum :: Pruning.rules ∧
      rule.condition node context = true ∧
        (reading.Satisfies node two ↔ reading.Satisfies (rule.transform node) two) := by
  intro reading rule node context two
  have respects : reading.RespectsTypes := by
    refine ⟨?_, ?_, ?_⟩
    · intro keyword listed content value idle
      have tabled : ∀ keyword ∈ Keyword.all,
          (keyword.name = "type" → keyword.instanceTypes = []) ∧
            (keyword.name = "enum" → keyword.instanceTypes = []) ∧
              (keyword.name = "maximum" → keyword.instanceTypes = [.number]) ∧
                (keyword.name = "maxLength" → keyword.instanceTypes = [.string]) := by decide
      obtain ⟨type, enum, maximum, maxLength⟩ := tabled keyword listed
      simp only [reading]
      split
      · rename_i same
        simp [Keyword.appliesTo, type same] at idle
      · rename_i same
        simp [Keyword.appliesTo, enum same] at idle
      · rename_i same
        rintro bound number _ rfl
        simp [Keyword.appliesTo, maximum same, Json.typeOf_widen_eq, Json.rank,
          Json.typeOfRank] at idle
      · rename_i same
        intro bound size _ _ _ sized
        cases value <;> cases sized
        simp [Keyword.appliesTo, maxLength same, Json.typeOf_widen_eq, Json.rank,
          Json.typeOfRank] at idle
      · trivial
    · intro type value
      constructor
      · exact fun holds => holds type rfl
      · intro instance_of other same
        rw [← InstanceType.name_injective (Json.string.inj same)]
        exact instance_of
    · intro choices value
      constructor
      · exact fun holds => holds choices rfl
      · rintro member others same
        cases same
        exact member
  have condition : rule.condition node context = true := by decide +kernel
  have listed : rule ∈ Redundancy.idleAssertionsBesideEnum :: Pruning.rules := by
    refine List.mem_cons_of_mem _ (List.mem_flatMap.mpr ⟨.integer, by decide, ?_⟩)
    refine List.mem_map.mpr ⟨_, List.mem_filter.mpr ⟨?_, by decide +kernel⟩, rfl⟩
    exact List.mem_cons_of_mem _ List.mem_cons_self
  exact ⟨respects, listed, condition, pruning_sound reading respects rule listed node context
    condition two⟩

end SchemaPack
