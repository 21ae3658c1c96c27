import SchemaPack.Proofs.Plan.Soundness
import SchemaPack.Proofs.Rules.Invariant

namespace SchemaPack

def Rounding.Gives (rounding : Rounding) (x : Number) (n : Int) : Prop :=
  match rounding with
  | .down => n * Binary64.one ≤ x.exact ∧ x.exact < (n + 1) * Binary64.one
  | .up => (n - 1) * Binary64.one < x.exact ∧ x.exact ≤ n * Binary64.one

/-- The bound under a keyword, in whole numbers: there is none, or a word holds it. -/
inductive BoundAt (node : Json) (keyword : String) (rounding : Rounding) : Option Int64 → Prop
  | absent (missing : node.get? keyword = none) : BoundAt node keyword rounding none
  | present {x : Number} {bound : Int64} (found : node.get? keyword = some (.number x))
      (rounded : rounding.Gives x bound.toInt) : BoundAt node keyword rounding (some bound)

/-- The distance of the values of a schema: one, or a whole number without its sign. -/
inductive StepAt (node : Json) : UInt64 → Prop
  | absent (missing : node.get? "multipleOf" = none) : StepAt node 1
  | present {x : Number} {n : Int64} {step : UInt64}
      (found : node.get? "multipleOf" = some (.number x))
      (whole : x.exact = n.toInt * Binary64.one) (nonzero : n ≠ 0)
      (absolute : step.toNat = n.toInt.natAbs) : StepAt node step

/-- A schema of integers of which nothing is said that words cannot hold. -/
structure IntegerSchema (node : Json) (minimum maximum : Option Int64) (step : UInt64) :
    Prop where
  unlisted : node.get? "enum" = none
  typed : node.get? "type" = some (.string "integer")
  lower : BoundAt node "minimum" .up minimum
  upper : BoundAt node "maximum" .down maximum
  distance : StepAt node step

/-- How a list of choices is encoded at the root. -/
inductive ListRow : List Json → Encoding → Prop
  | single (value : Json) : ListRow [value] (.constNone value)
  | byte {choices : List Json} (several : 2 ≤ choices.length) (few : choices.length ≤ 256) :
      ListRow choices (.topLevelByteChoiceIndex choices)
  | large {choices : List Json} (many : 256 < choices.length) :
      ListRow choices (.largeChoiceIndex choices)

/-- How the multiples of a number are encoded between the bounds that there are. -/
inductive RangeRow (step : UInt64) : Option Int64 → Option Int64 → Encoding → Prop
  | byte {minimum maximum : Int64}
      (few : (multiplesIn minimum.toInt maximum.toInt step.toNat).ncard ≤ 256) :
      RangeRow step (some minimum) (some maximum)
        (.boundedMultiple8BitsEnumFixed minimum maximum step)
  | wide {minimum maximum : Int64}
      (many : 256 < (multiplesIn minimum.toInt maximum.toInt step.toNat).ncard) :
      RangeRow step (some minimum) (some maximum) (.floorMultipleEnumVarint minimum step)
  | lower {minimum : Int64} :
      RangeRow step (some minimum) none (.floorMultipleEnumVarint minimum step)
  | upper {maximum : Int64} :
      RangeRow step none (some maximum) (.roofMultipleMirrorEnumVarint maximum step)
  | unbounded : RangeRow step none none (.arbitraryMultipleZigzagVarint step)

/-- The rows of the decision table: listed values, integers and numbers. -/
inductive Row (node : Json) : Encoding → Prop
  | listed {choices : List Json} {encoding : Encoding}
      (found : node.get? "enum" = some (.array choices)) (row : ListRow choices encoding) :
      Row node encoding
  | integer {minimum maximum : Option Int64} {step : UInt64} {encoding : Encoding}
      (schema : IntegerSchema node minimum maximum step)
      (row : RangeRow step minimum maximum encoding) : Row node encoding
  | number (unlisted : node.get? "enum" = none)
      (typed : node.get? "type" = some (.string "number")) : Row node .doubleVarintTuple

/-- The decision table of planning. A schema without a row is encoded as any value. -/
inductive Decides (vocabularies : Vocabularies) (node : Json) : Encoding → Prop
  | row {encoding : Encoding} (validated : Vocabulary.validation ∈ vocabularies)
      (row : Row node encoding) : Decides vocabularies node encoding
  | otherwise (rowless : Vocabulary.validation ∈ vocabularies → ∀ other, ¬Row node other) :
      Decides vocabularies node .anyPackedTypeTagBytePrefix

theorem Rounding.gives_iff {rounding : Rounding} {x : Number} {n : Int} :
    rounding.Gives x n ↔ x.toInt rounding = n := by
  cases rounding with
  | down =>
    have here := x.le_toInt_down n
    have next := x.le_toInt_down (n + 1)
    unfold Gives
    omega
  | up =>
    have here := x.toInt_up_le n
    have before := x.toInt_up_le (n - 1)
    unfold Gives
    omega

theorem boundAt_iff {node : Json} {keyword : String} {rounding : Rounding}
    {bound : Option Int64} :
    BoundAt node keyword rounding bound ↔
      IntegerDomain.bound? node keyword
        ((node.numberAt? keyword).bind (·.toInt64? rounding)) = some bound := by
  unfold IntegerDomain.bound? Json.numberAt?
  rw [Json.contains_eq]
  cases found : node.get? keyword with
  | none =>
    constructor
    · rintro (_ | ⟨present, _⟩)
      · rfl
      · rw [found] at present
        cases present
    · intro given
      cases given
      exact .absent found
  | some value =>
    constructor
    · rintro (missing | ⟨present, rounded⟩)
      · rw [found] at missing
        cases missing
      · cases found.symm.trans present
        have fits := word?_eq_some_iff.mpr (Rounding.gives_iff.mp rounded).symm
        simp only [Option.isSome_some, if_true, Option.bind_some, Json.number?,
          Number.toInt64?, fits, Option.map_some]
    · intro given
      simp only [Option.isSome_some, if_true, Option.bind_some] at given
      obtain ⟨word, rounded, rfl⟩ := Option.map_eq_some_iff.mp given
      obtain ⟨x, numeric, fits⟩ := Option.bind_eq_some_iff.mp rounded
      cases value <;> cases numeric
      exact .present found (Rounding.gives_iff.mpr (word?_eq_some_iff.mp fits).symm)

theorem stepAt_iff {node : Json} {step : UInt64} :
    StepAt node step ↔
      (Multiplier.of node = .absent ∧ step = 1) ∨ Multiplier.of node = .integral step := by
  rw [Multiplier.of_eq_absent_iff, Multiplier.of_eq_integral_iff]
  constructor
  · rintro (missing | ⟨found, whole, nonzero, absolute⟩)
    · exact .inl ⟨missing, rfl⟩
    · exact .inr ⟨_, _, found, whole, nonzero, absolute⟩
  · rintro (⟨missing, rfl⟩ | ⟨x, n, found, whole, nonzero, absolute⟩)
    · exact .absent missing
    · exact .present found whole nonzero absolute

theorem StepAt.pos {node : Json} {step : UInt64} (distance : StepAt node step) :
    0 < step.toNat := by
  cases distance with
  | absent => decide
  | present _ _ nonzero absolute =>
    have magnitude := Int.natAbs_pos.mpr fun zero =>
      nonzero (Int64.toInt_inj.mp (zero.trans Int64.toInt_zero.symm))
    omega

theorem integerSchema_iff {node : Json} {domain : IntegerDomain} :
    IntegerSchema node domain.minimum domain.maximum domain.multiplier ↔
      ∃ multiplied, IntegerDomain.of? node multiplied = some domain := by
  simp only [IntegerDomain.of?_eq_some_iff, Json.hasType_iff, Json.contains_eq,
    Option.isSome_eq_false_iff, Option.isNone_iff_eq_none]
  constructor
  · rintro ⟨unlisted, typed, lower, upper, distance⟩
    rcases stepAt_iff.mp distance with ⟨absent, unit⟩ | integral
    · exact ⟨false, typed, unlisted, .inl ⟨absent, rfl, unit⟩, boundAt_iff.mp lower,
        boundAt_iff.mp upper⟩
    · exact ⟨true, typed, unlisted, .inr ⟨integral, rfl⟩, boundAt_iff.mp lower,
        boundAt_iff.mp upper⟩
  · rintro ⟨multiplied, typed, unlisted, stepped, lower, upper⟩
    refine ⟨unlisted, typed, boundAt_iff.mpr lower, boundAt_iff.mpr upper, stepAt_iff.mpr ?_⟩
    rcases stepped with ⟨absent, _, unit⟩ | ⟨integral, _⟩
    · exact .inl ⟨absent, unit⟩
    · exact .inr integral

theorem IntegerDomain.encoding_row {domain : IntegerDomain}
    (positive : 0 < domain.multiplier.toNat) :
    RangeRow domain.multiplier domain.minimum domain.maximum domain.encoding := by
  obtain ⟨minimum, maximum, step⟩ := domain
  cases minimum <;> cases maximum
  case some.some minimum maximum =>
    have count := countMultiples_eq_ncard minimum.toInt maximum.toInt positive
    unfold encoding
    dsimp only at count ⊢
    split
    · rename_i fits
      exact .byte (count ▸ fitsInByte_iff.mp fits)
    · rename_i exceeds
      have many := Nat.lt_of_not_le (mt fitsInByte_iff.mpr exceeds)
      exact .wide (count ▸ many)
  case some.none => exact .lower
  case none.some => exact .upper
  case none.none => exact .unbounded

section Unique

variable {node : Json} {encoding other : Encoding}

theorem BoundAt.unique {keyword : String} {rounding : Rounding} {bound another : Option Int64}
    (first : BoundAt node keyword rounding bound)
    (second : BoundAt node keyword rounding another) : bound = another :=
  Option.some.inj ((boundAt_iff.mp first).symm.trans (boundAt_iff.mp second))

theorem StepAt.unique {step another : UInt64} (first : StepAt node step)
    (second : StepAt node another) : step = another := by
  rw [stepAt_iff] at first second
  rcases first with ⟨absent, rfl⟩ | integral
  · rcases second with ⟨_, rfl⟩ | integral
    · rfl
    · cases absent.symm.trans integral
  · rcases second with ⟨absent, _⟩ | same
    · cases absent.symm.trans integral
    · exact Multiplier.integral.inj (integral.symm.trans same)

theorem ListRow.unique {choices : List Json} (first : ListRow choices encoding)
    (second : ListRow choices other) : encoding = other := by
  cases first <;> cases second
  case single.single | byte.byte | large.large => rfl
  case byte.large | large.byte => omega
  all_goals
    simp only [List.length_singleton] at *
    omega

theorem RangeRow.unique {step : UInt64} {minimum maximum : Option Int64}
    (first : RangeRow step minimum maximum encoding)
    (second : RangeRow step minimum maximum other) : encoding = other := by
  cases first <;> cases second
  case byte.wide | wide.byte => omega
  all_goals rfl

/-- The rows of the table exclude each other. -/
theorem Row.unique (first : Row node encoding) (second : Row node other) : encoding = other := by
  cases first with
  | listed found row =>
    cases second with
    | listed same another =>
      cases found.symm.trans same
      exact row.unique another
    | integer schema => cases found.symm.trans schema.unlisted
    | number unlisted => cases found.symm.trans unlisted
  | integer schema row =>
    cases second with
    | listed found => cases found.symm.trans schema.unlisted
    | integer same another =>
      cases schema.lower.unique same.lower
      cases schema.upper.unique same.upper
      cases schema.distance.unique same.distance
      exact row.unique another
    | number _ typed => exact absurd (typed.symm.trans schema.typed) (by decide)
  | number unlisted typed =>
    cases second with
    | listed found => cases found.symm.trans unlisted
    | integer schema => exact absurd (typed.symm.trans schema.typed) (by decide)
    | number => rfl

theorem Decides.unique {vocabularies : Vocabularies}
    (first : Decides vocabularies node encoding) (second : Decides vocabularies node other) :
    encoding = other := by
  cases first with
  | row validated row =>
    cases second with
    | row _ another => exact row.unique another
    | otherwise rowless => exact absurd row (rowless validated _)
  | otherwise rowless =>
    cases second with
    | row validated row => exact absurd row (rowless validated _)
    | otherwise => rfl

end Unique

def Row.keywords : List String := ["enum", "type", "minimum", "maximum", "multipleOf"]

section Congruence

variable {node other : Json} (same : ∀ name ∈ Row.keywords, other.get? name = node.get? name)

include same

theorem BoundAt.of_get? {keyword : String} {rounding : Rounding} {bound : Option Int64}
    (read : keyword ∈ Row.keywords) (here : BoundAt node keyword rounding bound) :
    BoundAt other keyword rounding bound := by
  cases here with
  | absent missing => exact .absent ((same _ read).trans missing)
  | present found rounded => exact .present ((same _ read).trans found) rounded

theorem StepAt.of_get? {step : UInt64} (here : StepAt node step) : StepAt other step := by
  have steps := same "multipleOf" (by decide)
  cases here with
  | absent missing => exact .absent (steps.trans missing)
  | present found whole nonzero absolute =>
    exact .present (steps.trans found) whole nonzero absolute

theorem Row.of_get? {encoding : Encoding} (row : Row node encoding) : Row other encoding := by
  have listing := same "enum" (by decide)
  have typing := same "type" (by decide)
  cases row with
  | listed found row => exact .listed (listing.trans found) row
  | integer schema row =>
    refine .integer ⟨?_, ?_, ?_, ?_, ?_⟩ row
    · exact listing.trans schema.unlisted
    · exact typing.trans schema.typed
    · exact schema.lower.of_get? same (by decide)
    · exact schema.upper.of_get? same (by decide)
    · exact schema.distance.of_get? same
  | number unlisted typed => exact .number (listing.trans unlisted) (typing.trans typed)

end Congruence

theorem Row.of_plain {node other : Json} {encoding : Encoding}
    (same : ∀ name ∈ Keyword.plain, other.get? name = node.get? name) (row : Row node encoding) :
    Row other encoding := by
  have plain : ∀ name ∈ Row.keywords, name ∈ Keyword.plain := by decide
  exact row.of_get? fun name read => same name (plain name read)

theorem Decides.of_get? {vocabularies : Vocabularies} {node other : Json} {encoding : Encoding}
    (same : ∀ name ∈ Row.keywords, other.get? name = node.get? name)
    (decided : Decides vocabularies node encoding) : Decides vocabularies other encoding := by
  cases decided with
  | row validated row => exact .row validated (row.of_get? same)
  | otherwise rowless =>
    have back := fun name read => (same name read).symm
    exact .otherwise fun validated encoding row => rowless validated encoding (row.of_get? back)

end SchemaPack
