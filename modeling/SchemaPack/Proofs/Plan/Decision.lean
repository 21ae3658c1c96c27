import SchemaPack.Proofs.Plan.Table
import SchemaPack.Proofs.Rules.FixedPoint

namespace SchemaPack

def Rule.FollowsTable (rule : Rule) : Prop :=
  ∀ node context, context.pointer = .root → rule.condition node context = true →
    ∃ encoding : Encoding, Row node encoding ∧ rule.transform node = encoding.document

namespace Choices

theorem single_followsTable : single.FollowsTable := by
  intro node context _ condition
  obtain ⟨_, choices, found, length⟩ := count?_some (beq_iff_eq.mp condition)
  obtain ⟨value, rfl⟩ := List.length_eq_one_iff.mp length
  refine ⟨.constNone value, .listed (Json.get?_of_arrayAt? found) (.single value), ?_⟩
  simp only [single, found]
  rfl

theorem byteAtRoot_followsTable : byteAtRoot.FollowsTable := by
  intro node context _ condition
  simp only [byteAtRoot, Bool.and_eq_true] at condition
  obtain ⟨_, choices, found, fits⟩ := exists_of_any_count? condition.2
  simp only [fitsByte, Bool.and_eq_true] at fits
  have several : 2 ≤ choices.length := of_decide_eq_true fits.1
  have few : choices.length ≤ 256 := of_decide_eq_true fits.2
  exact ⟨.topLevelByteChoiceIndex choices,
    .listed (Json.get?_of_arrayAt? found) (.byte several few), replace_eq found _⟩

theorem byte_followsTable : byte.FollowsTable := by
  intro node context root condition
  simp only [byte, root, Bool.and_eq_true] at condition
  cases condition.1

theorem large_followsTable : large.FollowsTable := by
  intro node context _ condition
  obtain ⟨_, choices, found, exceeds⟩ := exists_of_any_count? condition
  have many : 256 < choices.length := of_decide_eq_true exceeds
  exact ⟨.largeChoiceIndex choices, .listed (Json.get?_of_arrayAt? found) (.large many),
    replace_eq found _⟩

theorem rules_followTable : ∀ rule ∈ rules, rule.FollowsTable := by
  simp only [rules, List.forall_mem_cons]
  exact ⟨single_followsTable, byteAtRoot_followsTable, byte_followsTable, large_followsTable,
    List.forall_mem_nil _⟩

end Choices

theorem Integers.rule_followsTable (name : String) (kind : RangeKind) (multiplied : Bool) :
    (Integers.rule name kind multiplied).FollowsTable := by
  intro node context _ condition
  simp only [Integers.rule, Bool.and_eq_true] at condition ⊢
  obtain ⟨domain, given, _⟩ := (Option.any_eq_true _ _).mp condition.2
  have schema := integerSchema_iff.mpr ⟨multiplied, given⟩
  refine ⟨domain.encoding, .integer schema (domain.encoding_row schema.distance.pos), ?_⟩
  rw [given]
  exact domain.document_eq

theorem Reals.anyNumber_followsTable : Reals.anyNumber.FollowsTable := by
  intro node context _ condition
  simp only [Reals.anyNumber, Bool.and_eq_true, Bool.not_eq_true', Json.contains_eq,
    Option.isSome_eq_false_iff, Option.isNone_iff_eq_none] at condition
  exact ⟨.doubleVarintTuple, .number condition.2 (Json.hasType_iff.mp condition.1.2), rfl⟩

theorem planRules_followTable : ∀ rule ∈ planRules, rule.FollowsTable := by
  intro rule listed
  rcases mem_planRules.mp listed with listed | listed | rfl
  · exact Choices.rules_followTable rule listed
  · exact Integers.forall_rules Integers.rule_followsTable rule listed
  · exact Reals.anyNumber_followsTable

theorem Integers.exists_rule (kind : RangeKind) (multiplied : Bool) :
    ∃ name, Integers.rule name kind multiplied ∈ Integers.rules := by
  cases kind <;> cases multiplied
  case byte.false => exact ⟨_, List.mem_of_getElem? (i := 0) rfl⟩
  case byte.true => exact ⟨_, List.mem_of_getElem? (i := 1) rfl⟩
  case wide.false => exact ⟨_, List.mem_of_getElem? (i := 2) rfl⟩
  case wide.true => exact ⟨_, List.mem_of_getElem? (i := 3) rfl⟩
  case lower.false => exact ⟨_, List.mem_of_getElem? (i := 4) rfl⟩
  case lower.true => exact ⟨_, List.mem_of_getElem? (i := 5) rfl⟩
  case upper.false => exact ⟨_, List.mem_of_getElem? (i := 6) rfl⟩
  case upper.true => exact ⟨_, List.mem_of_getElem? (i := 7) rfl⟩
  case unbounded.false => exact ⟨_, List.mem_of_getElem? (i := 8) rfl⟩
  case unbounded.true => exact ⟨_, List.mem_of_getElem? (i := 9) rfl⟩

theorem exists_planRule_of_row {node : Json} {context : Context} {encoding : Encoding}
    (plannable : isPlannable node context = true) (root : context.pointer = .root)
    (row : Row node encoding) : ∃ rule ∈ planRules, rule.condition node context = true := by
  have count : ∀ choices, node.get? "enum" = some (.array choices) →
      Choices.count? node context = some choices.length := by
    intro choices found
    simp only [Choices.count?, plannable, if_true, Json.arrayAt?, found, Option.bind_some,
      Json.items?, Option.map_some]
  cases row with
  | listed found row =>
    have counted := count _ found
    cases row with
    | single value =>
      refine ⟨Choices.single, mem_planRules.mpr (.inl ?_), ?_⟩
      · exact List.mem_cons_self
      · simp only [Choices.single, counted, List.length_singleton, beq_self_eq_true]
    | byte several few =>
      refine ⟨Choices.byteAtRoot, mem_planRules.mpr (.inl ?_), ?_⟩
      · exact List.mem_cons_of_mem _ List.mem_cons_self
      · simp only [Choices.byteAtRoot, root, counted, Option.any_some, Choices.fitsByte,
          Choices.byteChoices, several, few, decide_true, Bool.and_self]
        rfl
    | large many =>
      refine ⟨Choices.large, mem_planRules.mpr (.inl ?_), ?_⟩
      · exact List.mem_of_getElem? (i := 3) rfl
      · simp only [Choices.large, counted, Option.any_some, Choices.byteChoices, many,
          decide_true]
  | @integer minimum maximum step _ schema _ =>
    let domain : IntegerDomain := ⟨minimum, maximum, step⟩
    have read : ∃ multiplied, IntegerDomain.of? node multiplied = some domain :=
      integerSchema_iff.mp schema
    obtain ⟨multiplied, given⟩ := read
    obtain ⟨name, listed⟩ := Integers.exists_rule domain.rangeKind multiplied
    refine ⟨_, mem_planRules.mpr (.inr (.inl listed)), ?_⟩
    simp only [Integers.rule, plannable, given, Option.any_some, decide_true, Bool.and_self]
  | number unlisted typed =>
    refine ⟨Reals.anyNumber, mem_planRules.mpr (.inr (.inr rfl)), ?_⟩
    have typed : node.hasType .number = true := Json.hasType_iff.mpr typed
    simp only [Reals.anyNumber, plannable, typed, Json.contains_eq, unlisted, Option.isSome_none,
      Bool.not_false, Bool.and_self]

/-- A root in the course of planning: what its row of the table says, or what it was but for its
    subschemas. -/
def AtRow (vocabularies : Vocabularies) (document node : Json) : Prop :=
  (∃ encoding : Encoding, Vocabulary.validation ∈ vocabularies ∧ Row document encoding ∧
    node = encoding.document) ∨
      ∀ name ∈ Keyword.plain, node.get? name = document.get? name

theorem Dialect.declared?_of_plain {document node : Json}
    (same : ∀ name ∈ Keyword.plain, node.get? name = document.get? name) :
    declared? node = declared? document := by
  rw [declared?, declared?, same "$schema" (by decide)]

theorem planRules_stable_atRow {resolver : Resolver} {default : Option String}
    {dialect : String} {document : Json} {vocabularies : Vocabularies}
    (root : Dialect.ofDocument document default = .ok dialect)
    (known : Dialect.vocabularies resolver dialect = .ok vocabularies) :
    Fresh.Stable planRules resolver dialect .root (AtRow vocabularies document) where
  apply := by
    intro rule listed node context here condition reached
    obtain ⟨plannable, _⟩ := planRules_plan rule listed node context condition
    rcases reached with ⟨earlier, _, _, rfl⟩ | same
    · rw [not_isPlannable_document (Context.of_dialect here)] at plannable
      cases plannable
    · obtain ⟨_, _, active, place⟩ :=
        Dialect.context_of_ofDocument root (Dialect.declared?_of_plain same) here
      obtain ⟨_, validated, _⟩ := isPlannable_iff.mp plannable
      rw [Except.ok.inj (active.symm.trans known)] at validated
      obtain ⟨encoding, row, transformed⟩ :=
        planRules_followTable rule listed node context place condition
      have back : ∀ name ∈ Keyword.plain, document.get? name = node.get? name :=
        fun name plain => (same name plain).symm
      exact .inl ⟨encoding, validated, row.of_plain back, transformed⟩
  inside := by
    intro members results context _ alike reached
    rcases reached with ⟨encoding, validated, row, same⟩ | same
    · exact .inl ⟨encoding, validated, row, Encoding.eq_document_of_alike same alike⟩
    · refine .inr fun name plain => ?_
      rw [← same name plain]
      exact (alike.get? plain).symm

theorem not_row_of_runPasses {resolver : Resolver} {default : Option String} {dialect : String}
    {document result : Json} {vocabularies : Vocabularies} {limit number applied : Nat}
    {start : Json} (root : Dialect.ofDocument document default = .ok dialect)
    (foreign : dialect ≠ Encoding.metaschemaId)
    (based : Dialect.base resolver dialect = .ok Dialect.draft202012)
    (known : Dialect.vocabularies resolver dialect = .ok vocabularies)
    (validated : Vocabulary.validation ∈ vocabularies)
    (run : (Fresh.runPasses planRules Keyword.find? resolver dialect limit number applied
      start).result = .ok result)
    (same : Dialect.declared? result = Dialect.declared? document) (encoding : Encoding) :
    ¬Row result encoding := by
  intro row
  -- The last pass found no rule for the root, and a row would have had one.
  obtain ⟨_, _, last⟩ := Fresh.runPasses_last run
  obtain ⟨context, here, idle⟩ := (Fresh.visit_idle last).2 _ .refl
  obtain ⟨own, base, active, place⟩ := Dialect.context_of_ofDocument root same here
  have plannable : isPlannable result context = true := by
    rw [isPlannable_iff, Except.ok.inj (base.symm.trans based),
      Except.ok.inj (active.symm.trans known), own]
    exact ⟨rfl, validated, Encoding.isEncoding_of_ne foreign result⟩
  obtain ⟨rule, listed, matched⟩ := exists_planRule_of_row plannable place row
  rw [idle.unmatched rule listed] at matched
  cases matched

/-- A run of the planning rules ends at the document of a row, or the root has no row. -/
theorem saturate_planRules {resolver : Resolver} {default : Option String} {limit : Nat}
    {dialect : String} {document result : Json}
    (root : Dialect.ofDocument document default = .ok dialect)
    (foreign : dialect ≠ Encoding.metaschemaId)
    (based : Dialect.base resolver dialect = .ok Dialect.draft202012)
    (h : (saturate planRules resolver default document limit).result = .ok result) :
    ∃ vocabularies, Dialect.vocabularies resolver dialect = .ok vocabularies ∧
      ((∃ encoding : Encoding, Vocabulary.validation ∈ vocabularies ∧ Row document encoding ∧
        result = encoding.document) ∨
          Dialect.declared? result = Dialect.declared? document ∧
            (Vocabulary.validation ∈ vocabularies → ∀ encoding, ¬Row document encoding)) := by
  have run := h
  rw [saturate_eq, root, Traced.ofExcept_ok_bind] at run
  obtain ⟨context, here⟩ := Fresh.runPasses_context run
  obtain ⟨_, _, known, _⟩ := Dialect.context_of_ofDocument root rfl here
  refine ⟨_, known, ?_⟩
  have stable := planRules_stable_atRow root known
  rcases saturate_stable root stable h (.inr fun _ _ => rfl) with done | same
  · exact .inl done
  · have declared := Dialect.declared?_of_plain same
    refine .inr ⟨declared, fun validated encoding row => ?_⟩
    exact not_row_of_runPasses root foreign based known validated run declared encoding
      (row.of_plain same)

/-- What a plan was made of: the dialect of the root, its vocabularies and the encoding that the
    table gives for the root under them. -/
structure Planning (resolver : Resolver) (default : Option String) (document result : Json)
    (dialect : String) (vocabularies : Vocabularies) (encoding : Encoding) : Prop where
  root : Dialect.ofDocument document default = .ok dialect
  based : Dialect.base (Encoding.resolver resolver) dialect = .ok Dialect.draft202012
  active : Dialect.vocabularies (Encoding.resolver resolver) dialect = .ok vocabularies
  decided : Decides vocabularies document encoding
  written : result = encoding.document

theorem exists_planning {resolver : Resolver} {default : Option String}
    {document result : Json} {limit : Nat}
    (foreign : Dialect.ofDocument document default ≠ .ok Encoding.metaschemaId)
    (planned : (plan resolver default document limit).result = .ok result) :
    ∃ dialect vocabularies encoding,
      Planning resolver default document result dialect vocabularies encoding := by
  rw [plan] at planned
  obtain ⟨dialect, root, later⟩ := Traced.ofExcept_bind_ok planned
  obtain ⟨base, based, later⟩ := Traced.ofExcept_bind_ok later
  have other : dialect ≠ Encoding.metaschemaId := by
    rintro rfl
    exact foreign root
  split at later
  · cases later
  rename_i draft
  rw [not_not.mp draft] at based
  obtain ⟨reached, run, later⟩ := Traced.bind_result_ok later
  obtain ⟨vocabularies, active, done | ⟨same, rowless⟩⟩ := saturate_planRules root other based run
  · obtain ⟨encoding, validated, row, rfl⟩ := done
    rw [Encoding.ofDocument_dialect, Traced.ofExcept_ok_bind, Encoding.isEncoding_document] at later
    cases later
    exact ⟨_, _, encoding, root, based, active, .row validated row, rfl⟩
  · have still : Dialect.ofDocument reached default = .ok dialect := by
      rw [← root, Dialect.ofDocument, Dialect.ofDocument, same]
    rw [still, Traced.ofExcept_ok_bind, Encoding.isEncoding_of_ne other] at later
    cases later
    exact ⟨_, _, .anyPackedTypeTagBytePrefix, root, based, active, .otherwise rowless, rfl⟩

/-- Planning computes its decision table from the keywords at the root alone: what it gives is the
    document of the one encoding that the table has for the root under its vocabularies. -/
theorem plan_decides (resolver : Resolver) (default : Option String) (document result : Json)
    (limit : Nat) (foreign : Dialect.ofDocument document default ≠ .ok Encoding.metaschemaId)
    (planned : (plan resolver default document limit).result = .ok result) :
    ∃ dialect vocabularies encoding, Dialect.ofDocument document default = .ok dialect ∧
      Dialect.vocabularies (Encoding.resolver resolver) dialect = .ok vocabularies ∧
        (∀ other, Decides vocabularies document other ↔ other = encoding) ∧
          result = encoding.document := by
  obtain ⟨dialect, vocabularies, encoding, planning⟩ := exists_planning foreign planned
  refine ⟨dialect, vocabularies, encoding, planning.root, planning.active, ?_, planning.written⟩
  intro other
  constructor
  · exact fun decided => decided.unique planning.decided
  · rintro rfl
    exact planning.decided

theorem plan_decides_floor :
    let half := Json.number (.real ⟨false, 4503599627370496, 1021, by decide⟩)
    let document := Json.object [("$schema", .string (Dialect.draft202012 ++ "#")),
      ("type", .string "integer"), ("minimum", half), ("maximum", .number (.integer 800)),
      ("multipleOf", .number (.integer (-3))), ("not", .object [("enum", .array [.null])])]
    let result := (Encoding.floorMultipleEnumVarint 1 3).document
    Dialect.ofDocument document none ≠ .ok Encoding.metaschemaId ∧
      (plan Dialect.official none document 20).result = .ok result ∧
        ∃ dialect vocabularies encoding, Dialect.ofDocument document none = .ok dialect ∧
          Dialect.vocabularies (Encoding.resolver Dialect.official) dialect = .ok vocabularies ∧
            (∀ other, Decides vocabularies document other ↔ other = encoding) ∧
              result = encoding.document := by
  intro half document result
  have foreign : Dialect.ofDocument document none ≠ .ok Encoding.metaschemaId := by
    decide +kernel
  have planned : (plan Dialect.official none document 20).result = .ok result := by
    decide +kernel
  exact ⟨foreign, planned, plan_decides _ none document result 20 foreign planned⟩

end SchemaPack
