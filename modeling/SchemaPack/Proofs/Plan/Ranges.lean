import SchemaPack.Proofs.Plan.Decision
import SchemaPack.Proofs.Plan.Enumeration
import SchemaPack.Proofs.Plan.Exclusion

namespace SchemaPack

/-- The integers that keep the bounds and the distance which a schema gives, all taken exactly. -/
def Json.admittedIntegers (node : Json) : Set Int :=
  {n | (∀ x, node.get? "minimum" = some (.number x) → x.exact ≤ n * Binary64.one) ∧
    (∀ x, node.get? "maximum" = some (.number x) → n * Binary64.one ≤ x.exact) ∧
      ∀ x, node.get? "multipleOf" = some (.number x) → x.exact ∣ n * Binary64.one}

/-- An encoding that was chosen by the number of the admitted integers and the bounds that there
    are, and whose options describe the admitted integers. A wide range lost its upper bound. -/
inductive Describes (node : Json) : Encoding → Prop
  | byte {minimum maximum : Int64} {step : UInt64}
      (lower : node.contains "minimum" = true) (upper : node.contains "maximum" = true)
      (few : node.admittedIntegers.encard ≤ 256)
      (exact : node.admittedIntegers = multiplesIn minimum.toInt maximum.toInt step.toNat) :
      Describes node (.boundedMultiple8BitsEnumFixed minimum maximum step)
  | wide {minimum : Int64} {x : Number} {step : UInt64}
      (lower : node.contains "minimum" = true) (upper : node.get? "maximum" = some (.number x))
      (many : 256 < node.admittedIntegers.encard)
      (exact : node.admittedIntegers = multiplesIn minimum.toInt (x.toInt .down) step.toNat) :
      Describes node (.floorMultipleEnumVarint minimum step)
  | lower {minimum : Int64} {step : UInt64}
      (lower : node.contains "minimum" = true) (upper : node.contains "maximum" = false)
      (exact : node.admittedIntegers = {n | minimum.toInt ≤ n ∧ (step.toNat : Int) ∣ n}) :
      Describes node (.floorMultipleEnumVarint minimum step)
  | upper {maximum : Int64} {step : UInt64}
      (lower : node.contains "minimum" = false) (upper : node.contains "maximum" = true)
      (exact : node.admittedIntegers = {n | n ≤ maximum.toInt ∧ (step.toNat : Int) ∣ n}) :
      Describes node (.roofMultipleMirrorEnumVarint maximum step)
  | unbounded {step : UInt64}
      (lower : node.contains "minimum" = false) (upper : node.contains "maximum" = false)
      (exact : node.admittedIntegers = {n | (step.toNat : Int) ∣ n}) :
      Describes node (.arbitraryMultipleZigzagVarint step)

section Exact

variable {node : Json}

theorem BoundAt.le_iff {minimum : Option Int64} (lower : BoundAt node "minimum" .up minimum)
    (n : Int) : (∀ x, node.get? "minimum" = some (.number x) → x.exact ≤ n * Binary64.one) ↔
      ∀ bound ∈ minimum, bound.toInt ≤ n := by
  cases lower with
  | absent missing => simp [missing]
  | @present x bound found rounded =>
    simp [found, ← Rounding.gives_iff.mp rounded, x.toInt_up_le]

theorem BoundAt.ge_iff {maximum : Option Int64} (upper : BoundAt node "maximum" .down maximum)
    (n : Int) : (∀ x, node.get? "maximum" = some (.number x) → n * Binary64.one ≤ x.exact) ↔
      ∀ bound ∈ maximum, n ≤ bound.toInt := by
  cases upper with
  | absent missing => simp [missing]
  | @present x bound found rounded =>
    simp [found, ← Rounding.gives_iff.mp rounded, x.le_toInt_down]

theorem StepAt.dvd_iff {step : UInt64} (distance : StepAt node step) (n : Int) :
    (∀ x, node.get? "multipleOf" = some (.number x) → x.exact ∣ n * Binary64.one) ↔
      (step.toNat : Int) ∣ n := by
  cases distance with
  | absent missing => simp [missing]
  | present found whole _ absolute =>
    have unit : (Binary64.one : Int) ≠ 0 := Int.ne_of_gt Binary64.one_pos
    rw [absolute, Int.natAbs_dvd, ← Int.mul_dvd_mul_iff_right unit, ← whole]
    simp [found]

/-- Rounding inwards and dropping the sign of the multiple lose no integer and add none. -/
theorem IntegerSchema.mem_admittedIntegers_iff {minimum maximum : Option Int64} {step : UInt64}
    (schema : IntegerSchema node minimum maximum step) (n : Int) :
    n ∈ node.admittedIntegers ↔ (∀ bound ∈ minimum, bound.toInt ≤ n) ∧
      (∀ bound ∈ maximum, n ≤ bound.toInt) ∧ (step.toNat : Int) ∣ n := by
  rw [← schema.lower.le_iff, ← schema.upper.ge_iff, ← schema.distance.dvd_iff]
  rfl

theorem IntegerSchema.admittedIntegers_eq {minimum maximum : Int64} {step : UInt64}
    (schema : IntegerSchema node (some minimum) (some maximum) step) :
    node.admittedIntegers = multiplesIn minimum.toInt maximum.toInt step.toNat := by
  ext n
  simp [schema.mem_admittedIntegers_iff, multiplesIn]

theorem multiplesIn_finite (minimum maximum : Int) (step : Nat) :
    (multiplesIn minimum maximum step).Finite :=
  (Set.finite_Icc minimum maximum).subset fun _ multiple => ⟨multiple.1, multiple.2.1⟩

theorem encard_multiplesIn (minimum maximum : Int) {step : Nat} (positive : 0 < step) :
    (multiplesIn minimum maximum step).encard = countMultiples minimum maximum step := by
  rw [countMultiples_eq_ncard _ _ positive, (multiplesIn_finite _ _ _).cast_ncard_eq]

theorem IntegerSchema.encard_le_iff {minimum maximum : Int64} {step : UInt64}
    (schema : IntegerSchema node (some minimum) (some maximum) step) :
    node.admittedIntegers.encard ≤ 256 ↔
      countMultiples minimum.toInt maximum.toInt step.toNat ≤ 256 := by
  rw [schema.admittedIntegers_eq, encard_multiplesIn _ _ schema.distance.pos]
  exact Nat.cast_le

theorem BoundAt.isSome_eq {keyword : String} {rounding : Rounding} {bound : Option Int64}
    (here : BoundAt node keyword rounding bound) : node.contains keyword = bound.isSome := by
  rw [Json.contains_eq]
  cases here with
  | absent missing => rw [missing, Option.isSome_none, Option.isSome_none]
  | present found _ => rw [found, Option.isSome_some, Option.isSome_some]

end Exact

theorem IntegerDomain.encoding_describes {node : Json} {domain : IntegerDomain}
    (schema : IntegerSchema node domain.minimum domain.maximum domain.multiplier) :
    Describes node domain.encoding := by
  have row := domain.encoding_row schema.distance.pos
  have lower := schema.lower.isSome_eq
  have upper := schema.upper.isSome_eq
  obtain ⟨minimum, maximum, step⟩ := domain
  dsimp only at schema row lower upper
  have admitted := schema.mem_admittedIntegers_iff
  generalize IntegerDomain.encoding _ = encoding at row ⊢
  cases row with
  | byte few =>
    rw [← countMultiples_eq_ncard _ _ schema.distance.pos] at few
    exact .byte lower upper (schema.encard_le_iff.mpr few) schema.admittedIntegers_eq
  | @wide minimum maximum many =>
    rw [← countMultiples_eq_ncard _ _ schema.distance.pos] at many
    have exact := schema.admittedIntegers_eq
    cases schema.upper with
    | present found rounded =>
      rw [← Rounding.gives_iff.mp rounded] at exact
      refine .wide lower found (not_le.mp fun few => ?_) exact
      exact Nat.not_le.mpr many (schema.encard_le_iff.mp few)
  | lower => exact .lower lower upper (by ext n; simp [admitted])
  | upper => exact .upper lower upper (by ext n; simp [admitted])
  | unbounded => exact .unbounded lower upper (by ext n; simp [admitted])

theorem Describes.few_iff {node : Json} {encoding : Encoding} (described : Describes node encoding)
    (lower : node.contains "minimum" = true) (upper : node.contains "maximum" = true) :
    encoding.kind = .boundedMultiple8BitsEnumFixed ↔ node.admittedIntegers.encard ≤ 256 := by
  cases described with
  | byte _ _ few => exact iff_of_true rfl few
  | wide _ _ many => exact iff_of_false nofun (not_le.mpr many)
  | lower _ absent => cases upper.symm.trans absent
  | upper absent | unbounded absent => cases lower.symm.trans absent

theorem IntegerSchema.listed_iff {node : Json} {minimum maximum : Option Int64} {step : UInt64}
    {vocabularies : Vocabularies} (schema : IntegerSchema node minimum maximum step)
    (validated : Vocabulary.validation ∈ vocabularies)
    (lower : node.contains "minimum" = true) (upper : node.contains "maximum" = true) :
    node.admittedIntegers.encard ≤ 256 ↔ ∃ states,
      integerStates? node vocabularies = some states ∧ states.length ≤ 256 := by
  rw [schema.lower.isSome_eq] at lower
  rw [schema.upper.isSome_eq] at upper
  obtain ⟨minimum, rfl⟩ := Option.isSome_iff_exists.mp lower
  obtain ⟨maximum, rfl⟩ := Option.isSome_iff_exists.mp upper
  rw [schema.encard_le_iff, ← length_multiples minimum maximum schema.distance.pos,
    integerStates?_eq validated schema.lower schema.upper schema.distance]
  constructor
  · exact fun few => ⟨_, rfl, few⟩
  · rintro ⟨states, same, few⟩
    rwa [Option.some.inj same]

theorem Integers.exists_encoding {rule : Rule} (listed : rule ∈ Integers.rules) {node : Json}
    {context : Context} (condition : rule.condition node context = true) :
    isPlannable node context = true ∧ ∃ domain : IntegerDomain,
      IntegerSchema node domain.minimum domain.maximum domain.multiplier ∧
        rule.transform node = domain.document := by
  have each : ∀ rule ∈ Integers.rules, rule.condition node context = true →
      isPlannable node context = true ∧ ∃ domain : IntegerDomain,
        IntegerSchema node domain.minimum domain.maximum domain.multiplier ∧
          rule.transform node = domain.document := by
    apply forall_rules
    intro name kind multiplied condition
    obtain ⟨domain, given, _⟩ := exists_domain condition
    refine ⟨((Bool.and_eq_true _ _).mp condition).1, domain,
      integerSchema_iff.mpr ⟨multiplied, given⟩, ?_⟩
    simp only [Integers.rule, given]
  exact each rule listed condition

theorem find?_integer {node : Json} {context : Context} {domain : IntegerDomain}
    (plannable : isPlannable node context = true)
    (schema : IntegerSchema node domain.minimum domain.maximum domain.multiplier) :
    ∃ rule, planRules.find? (·.condition node context) = some rule ∧
      rule.transform node = domain.document := by
  obtain ⟨multiplied, given⟩ := integerSchema_iff.mp schema
  obtain ⟨name, listed⟩ := Integers.exists_rule domain.rangeKind multiplied
  have condition : (Integers.rule name domain.rangeKind multiplied).condition node context =
      true := by
    simp only [Integers.rule, plannable, given, Option.any_some, decide_true, Bool.and_self]
  refine ⟨_, find?_eq_of_excludes planRules_exclude (mem_planRules.mpr (.inr (.inl listed)))
    condition, ?_⟩
  simp only [Integers.rule, given]

section Respelled

variable {node other : Json}

theorem BoundAt.of_get?_eq {keyword : String} {rounding : Rounding} {bound : Option Int64}
    (same : other.get? keyword = node.get? keyword) (here : BoundAt node keyword rounding bound) :
    BoundAt other keyword rounding bound := by
  cases here with
  | absent missing => exact .absent (same.trans missing)
  | present found rounded => exact .present (same.trans found) rounded

variable (same : ∀ name, name ≠ "multipleOf" → other.get? name = node.get? name)

include same

theorem IntegerSchema.of_step {minimum maximum : Option Int64} {step : UInt64}
    (schema : IntegerSchema node minimum maximum step) (distance : StepAt other step) :
    IntegerSchema other minimum maximum step where
  unlisted := (same "enum" (by decide)).trans schema.unlisted
  typed := (same "type" (by decide)).trans schema.typed
  lower := schema.lower.of_get?_eq (same "minimum" (by decide))
  upper := schema.upper.of_get?_eq (same "maximum" (by decide))
  distance := distance

theorem isPlannable_of_step (context : Context) :
    isPlannable other context = isPlannable node context := by
  simp only [isPlannable, Encoding.isEncoding, Json.contains_eq, same "name" (by decide),
    same "options" (by decide)]

end Respelled

/-- The encoding of integers describes exactly the integers that the node admits: which encoding
    is chosen follows from how many there are, as by listing them, and a step of one is the same
    whether it is left out, one or minus one. -/
theorem integers_described (rule : Rule) (node : Json) (context : Context)
    (listed : rule ∈ Integers.rules) (condition : rule.condition node context = true) :
    ∃ encoding : Encoding, rule.transform node = encoding.document ∧ Describes node encoding ∧
      (node.contains "minimum" = true → node.contains "maximum" = true →
        (encoding.kind = .boundedMultiple8BitsEnumFixed ↔ node.admittedIntegers.encard ≤ 256) ∧
        (node.admittedIntegers.encard ≤ 256 ↔ ∃ states,
          integerStates? node context.vocabularies = some states ∧ states.length ≤ 256)) ∧
      ∀ other, (∀ name, name ≠ "multipleOf" → other.get? name = node.get? name) →
        StepAt node 1 → StepAt other 1 → ∃ found,
          planRules.find? (·.condition other context) = some found ∧
            found.transform other = encoding.document := by
  obtain ⟨plannable, domain, schema, written⟩ := Integers.exists_encoding listed condition
  have described := IntegerDomain.encoding_describes schema
  refine ⟨domain.encoding, written.trans domain.document_eq, described, ?_, ?_⟩
  · have validated := (isPlannable_iff.mp plannable).2.1
    exact fun lower upper =>
      ⟨described.few_iff lower upper, schema.listed_iff validated lower upper⟩
  · intro other same unit respelled
    have step := schema.distance.unique unit
    have another := schema.of_step same (step ▸ respelled)
    rw [← isPlannable_of_step same] at plannable
    rw [← domain.document_eq]
    exact find?_integer plannable another

theorem integers_described_byte :
    let half := Json.number (.real ⟨true, 4503599627370496, 1021, by decide⟩)
    let node := Json.object [("type", .string "integer"), ("minimum", half),
      ("maximum", .number (.integer 255))]
    let context : Context := ⟨Dialect.draft202012, Dialect.draft202012,
      [Vocabulary.core, Vocabulary.validation], .root⟩
    ∃ rule ∈ Integers.rules, rule.condition node context = true ∧
      ∃ encoding : Encoding, rule.transform node = encoding.document ∧ Describes node encoding ∧
        (encoding.kind = .boundedMultiple8BitsEnumFixed ↔ node.admittedIntegers.encard ≤ 256) ∧
        ∀ x : Number, x.exact = -Binary64.one → ∃ found,
          planRules.find? (·.condition (node.insert "multipleOf" (.number x)) context) =
              some found ∧
            found.transform (node.insert "multipleOf" (.number x)) = encoding.document := by
  intro half node context
  have listed : Integers.rule "integer_bounded_8_bit" .byte false ∈ Integers.rules :=
    List.mem_cons_self
  have condition : (Integers.rule "integer_bounded_8_bit" .byte false).condition node context =
      true := by decide +kernel
  obtain ⟨encoding, written, described, counted, respelled⟩ :=
    integers_described _ node context listed condition
  refine ⟨_, listed, condition, encoding, written, described, (counted rfl rfl).1, ?_⟩
  intro x minus
  refine respelled _ (fun name ne => Json.get?_insert_ne _ _ ne.symm) (.absent rfl) ?_
  exact .present (n := -1) (Json.get?_insert_self _ _ _ rfl) minus (by decide) rfl

end SchemaPack
