import SchemaPack.Plan
import SchemaPack.Proofs.Canonical.Soundness
import SchemaPack.Proofs.Encoding.Dialect
import SchemaPack.Proofs.Encoding.Domain
import SchemaPack.Proofs.Plan.Multiples

namespace SchemaPack

def Rule.Plans (rule : Rule) : Prop :=
  ∀ node context, rule.condition node context = true → isPlannable node context = true ∧
    ∃ encoding : Encoding, rule.transform node = encoding.document ∧
      ∀ value, node.Allows value → encoding.Admits Number.units value

theorem isPlannable_iff {node : Json} {context : Context} : isPlannable node context = true ↔
    context.baseDialect = Dialect.draft202012 ∧ Vocabulary.validation ∈ context.vocabularies ∧
      Encoding.isEncoding context.dialect node = false := by
  simp only [isPlannable, Context.has, Bool.and_eq_true, beq_iff_eq, List.contains_iff_mem,
    Bool.not_eq_true', and_assoc]

theorem not_isPlannable_document {context : Context} {inherited : String} {encoding : Encoding}
    (dialect : context.dialect = Dialect.ofNode inherited encoding.document) :
    isPlannable encoding.document context = false := by
  rw [Encoding.ofNode_document] at dialect
  rw [isPlannable, dialect, Encoding.isEncoding_document, Bool.not_true, Bool.and_false]

namespace Choices

theorem count?_some {node : Json} {context : Context} {n : Nat}
    (counted : count? node context = some n) : isPlannable node context = true ∧
      ∃ choices, node.arrayAt? "enum" = some choices ∧ choices.length = n := by
  unfold count? at counted
  split at counted
  · rename_i plannable
    obtain ⟨choices, found, length⟩ := Option.map_eq_some_iff.mp counted
    exact ⟨plannable, choices, found, length⟩
  · cases counted

theorem single_plans : single.Plans := by
  intro node context condition
  obtain ⟨plannable, choices, found, length⟩ := count?_some (beq_iff_eq.mp condition)
  obtain ⟨value, rfl⟩ := List.length_eq_one_iff.mp length
  refine ⟨plannable, .constNone value, by simp only [single, found]; rfl, ?_⟩
  intro instance_value allows
  obtain ⟨choice, listed, same⟩ :=
    allows .enum (by decide) _ (Json.get?_of_arrayAt? found) _ rfl
  rwa [List.mem_singleton.mp listed] at same

theorem exists_of_any_count? {node : Json} {context : Context} {fits : Nat → Bool}
    (counted : (count? node context).any fits = true) : isPlannable node context = true ∧
      ∃ choices, node.arrayAt? "enum" = some choices ∧ fits choices.length = true := by
  obtain ⟨n, count, fitting⟩ := (Option.any_eq_true _ _).mp counted
  obtain ⟨plannable, choices, found, rfl⟩ := count?_some count
  exact ⟨plannable, choices, found, fitting⟩

theorem replace_eq {node : Json} {choices : List Json}
    (found : node.arrayAt? "enum" = some choices) (name : String) :
    replace node name = Encoding.wrap name (.object [("choices", .array choices)]) := by
  rw [replace, found]

theorem replace_plans {node : Json} {context : Context} {fits : Nat → Bool} {name : String}
    (encoding : List Json → Encoding)
    (written : ∀ choices,
      Encoding.wrap name (.object [("choices", .array choices)]) = (encoding choices).document)
    (admits : ∀ choices value, (∃ choice ∈ choices, value.SameBy Number.units choice) →
      (encoding choices).Admits Number.units value)
    (counted : (count? node context).any fits = true) : isPlannable node context = true ∧
      ∃ planned : Encoding, replace node name = planned.document ∧
        ∀ value, node.Allows value → planned.Admits Number.units value := by
  obtain ⟨plannable, choices, found, _⟩ := exists_of_any_count? counted
  refine ⟨plannable, encoding choices, (replace_eq found name).trans (written choices), ?_⟩
  intro value allows
  exact admits choices value (allows .enum (by decide) _ (Json.get?_of_arrayAt? found) _ rfl)

theorem byteAtRoot_plans : byteAtRoot.Plans := by
  intro node context condition
  simp only [byteAtRoot, Bool.and_eq_true] at condition
  exact replace_plans .topLevelByteChoiceIndex (fun _ => rfl) (fun _ _ same => same) condition.2

theorem byte_plans : byte.Plans := by
  intro node context condition
  simp only [byte, Bool.and_eq_true] at condition
  exact replace_plans .byteChoiceIndex (fun _ => rfl) (fun _ _ same => same) condition.2

theorem large_plans : large.Plans :=
  fun _ _ condition =>
    replace_plans .largeChoiceIndex (fun _ => rfl) (fun _ _ same => same) condition

theorem rules_plan : ∀ rule ∈ rules, rule.Plans := by
  simp only [rules, List.forall_mem_cons]
  exact ⟨single_plans, byteAtRoot_plans, byte_plans, large_plans, List.forall_mem_nil _⟩

end Choices

namespace IntegerDomain

variable {node : Json} {multiplied : Bool} {domain : IntegerDomain}

theorem of?_eq_some_iff : of? node multiplied = some domain ↔
    node.hasType .integer = true ∧ node.contains "enum" = false ∧
      (Multiplier.of node = .absent ∧ multiplied = false ∧ domain.multiplier = 1 ∨
        Multiplier.of node = .integral domain.multiplier ∧ multiplied = true) ∧
          bound? node "minimum" (integerMinimum? node) = some domain.minimum ∧
            bound? node "maximum" (integerMaximum? node) = some domain.maximum := by
  obtain ⟨minimum, maximum, multiplier⟩ := domain
  have parts : ∀ step : UInt64, (do
      let minimum ← bound? node "minimum" (integerMinimum? node)
      let maximum ← bound? node "maximum" (integerMaximum? node)
      return ({ minimum, maximum, multiplier := step } : IntegerDomain)) =
          some ⟨minimum, maximum, multiplier⟩ ↔
        step = multiplier ∧ bound? node "minimum" (integerMinimum? node) = some minimum ∧
          bound? node "maximum" (integerMaximum? node) = some maximum := by
    intro step
    cases bound? node "minimum" (integerMinimum? node) with
    | none => simp
    | some lower =>
      cases bound? node "maximum" (integerMaximum? node) with
      | none => simp
      | some upper =>
        simp only [Option.bind_eq_bind, Option.bind_some, Option.pure_def, Option.some.injEq,
          IntegerDomain.mk.injEq]
        rw [← and_assoc, and_comm]
  unfold of?
  cases typed : node.hasType .integer <;> cases listed : node.contains "enum"
  case true.false =>
    cases steps : Multiplier.of node <;> cases multiplied
    case absent.false => simpa [eq_comm] using parts 1
    case integral.true step => simpa using parts step
    all_goals simp
  all_goals simp

theorem bound?_some {keyword : String} {value : Option Int64} {bound : Int64}
    (given : bound? node keyword value = some (some bound)) : value = some bound := by
  unfold bound? at given
  split at given
  · obtain ⟨found, rfl, same⟩ := Option.map_eq_some_iff.mp given
    exact same
  · cases given

variable {number : Number} {n : Int}

theorem minimum_le (allows : node.Allows (.number number))
    (integer : number.exact = n * Binary64.one)
    (given : bound? node "minimum" (integerMinimum? node) = some domain.minimum)
    {minimum : Int64} (lower : domain.minimum = some minimum) : minimum.toInt ≤ n := by
  rw [lower] at given
  obtain ⟨bound, found, word⟩ := Option.bind_eq_some_iff.mp (bound?_some given)
  have above := allows .minimum (by decide) _ (Json.get?_of_numberAt? found) _ _ rfl rfl
  rw [integer] at above
  rw [toInt_of_word? word]
  exact (bound.toInt_up_le n).mpr above

theorem le_maximum (allows : node.Allows (.number number))
    (integer : number.exact = n * Binary64.one)
    (given : bound? node "maximum" (integerMaximum? node) = some domain.maximum)
    {maximum : Int64} (upper : domain.maximum = some maximum) : n ≤ maximum.toInt := by
  rw [upper] at given
  obtain ⟨bound, found, word⟩ := Option.bind_eq_some_iff.mp (bound?_some given)
  have below := allows .maximum (by decide) _ (Json.get?_of_numberAt? found) _ _ rfl rfl
  rw [integer] at below
  rw [toInt_of_word? word]
  exact (bound.le_toInt_down n).mpr below

end IntegerDomain

theorem Multiplier.dvd {node : Json} {number : Number} {n : Int} {step : UInt64}
    (allows : node.Allows (.number number)) (integer : number.exact = n * Binary64.one)
    (given : Multiplier.of node = .integral step) : (step.toNat : Int) ∣ n := by
  obtain ⟨multiple, m, found, whole, some_step, absolute⟩ := of_eq_integral_iff.mp given
  have nonzero : m.toInt ≠ 0 := fun zero =>
    some_step (Int64.toInt_inj.mp (zero.trans Int64.toInt_zero.symm))
  have positive := Binary64.one_pos
  have divides := allows .multipleOf (by decide) _ found _ _ rfl rfl
    (whole ▸ Int.mul_ne_zero nonzero (by omega))
  rw [whole, integer] at divides
  rw [absolute, Int.natAbs_dvd]
  exact Int.dvd_of_mul_dvd_mul_right (by omega) divides

namespace IntegerDomain

/-- The encoding whose document is written for a domain. -/
def encoding (domain : IntegerDomain) : Encoding :=
  match domain.minimum, domain.maximum with
  | some minimum, some maximum =>
    if fitsInByte (countMultiples minimum.toInt maximum.toInt domain.multiplier.toNat) then
      .boundedMultiple8BitsEnumFixed minimum maximum domain.multiplier
    else .floorMultipleEnumVarint minimum domain.multiplier
  | some minimum, none => .floorMultipleEnumVarint minimum domain.multiplier
  | none, some maximum => .roofMultipleMirrorEnumVarint maximum domain.multiplier
  | none, none => .arbitraryMultipleZigzagVarint domain.multiplier

theorem document_eq (domain : IntegerDomain) : domain.document = domain.encoding.document := by
  obtain ⟨minimum, maximum, multiplier⟩ := domain
  cases minimum <;> cases maximum
  case some.some minimum maximum =>
    unfold document encoding
    dsimp only
    split <;> rfl
  all_goals rfl

theorem encoding_admits {node value : Json} {multiplied : Bool} {domain : IntegerDomain}
    (given : of? node multiplied = some domain) (allows : node.Allows value) :
    domain.encoding.Admits Number.units value := by
  obtain ⟨typed, _, stepped, lower, upper⟩ := of?_eq_some_iff.mp given
  have instance_of := Json.isInstanceOf_of_hasType allows typed
  obtain ⟨number, rfl, integral⟩ := Json.eq_number_of_isInstanceOf (.inl rfl) instance_of
  have integer := Number.exact_eq_of_isIntegral (integral rfl) .down
  have divides : (domain.multiplier.toNat : Int) ∣ number.toInt .down := by
    rcases stepped with ⟨_, _, unit⟩ | ⟨multiplier, _⟩
    · rw [unit]
      exact Int.one_dvd _
    · exact Multiplier.dvd allows integer multiplier
  unfold encoding
  split
  · rename_i minimum maximum has_minimum has_maximum
    have above := minimum_le allows integer lower has_minimum
    have below := le_maximum allows integer upper has_maximum
    split
    · exact ⟨number, _, rfl, integer, above, below, divides⟩
    · exact ⟨number, _, rfl, integer, above, divides⟩
  · rename_i minimum has_minimum _
    exact ⟨number, _, rfl, integer, minimum_le allows integer lower has_minimum, divides⟩
  · rename_i maximum _ has_maximum
    exact ⟨number, _, rfl, integer, le_maximum allows integer upper has_maximum, divides⟩
  · exact ⟨number, _, rfl, integer, divides⟩

end IntegerDomain

theorem Integers.rule_plans (name : String) (kind : RangeKind) (multiplied : Bool) :
    (Integers.rule name kind multiplied).Plans := by
  intro node context condition
  simp only [Integers.rule, Bool.and_eq_true] at condition ⊢
  cases given : IntegerDomain.of? node multiplied with
  | none =>
    rw [given] at condition
    cases condition.2
  | some domain =>
    exact ⟨condition.1, domain.encoding, domain.document_eq,
      fun _ allows => IntegerDomain.encoding_admits given allows⟩

theorem Integers.forall_rules {property : Rule → Prop}
    (each : ∀ name kind multiplied, property (rule name kind multiplied)) :
    ∀ rule ∈ rules, property rule := by
  simp only [rules, List.forall_mem_cons]
  exact ⟨each _ _ _, each _ _ _, each _ _ _, each _ _ _, each _ _ _, each _ _ _, each _ _ _,
    each _ _ _, each _ _ _, each _ _ _, List.forall_mem_nil _⟩

theorem Reals.anyNumber_plans : Reals.anyNumber.Plans := by
  intro node context condition
  simp only [Reals.anyNumber, Bool.and_eq_true] at condition
  refine ⟨condition.1.1, .doubleVarintTuple, rfl, ?_⟩
  intro value allows
  have instance_of := Json.isInstanceOf_of_hasType allows condition.1.2
  obtain ⟨number, same, _⟩ := Json.eq_number_of_isInstanceOf (.inr rfl) instance_of
  exact ⟨number, same⟩

theorem mem_planRules {rule : Rule} : rule ∈ planRules ↔
    rule ∈ Choices.rules ∨ rule ∈ Integers.rules ∨ rule = Reals.anyNumber := by
  rw [planRules, List.mem_append, List.mem_append, or_assoc, Reals.rules, List.mem_singleton]

theorem planRules_safe : ∀ rule ∈ planRules, rule.Safe := by
  intro rule listed
  rcases mem_planRules.mp listed with listed | listed | rfl
  · simp only [Choices.rules, List.mem_cons, List.not_mem_nil, or_false] at listed
    rcases listed with rfl | rfl | rfl | rfl <;> exact fun _ _ => rfl
  · exact @Integers.forall_rules Rule.Safe (fun _ _ _ _ _ => rfl) rule listed
  · exact fun _ _ => rfl

theorem planRules_first (node : Json) (context : Context) :
    Rule.first node context planRules = pure (planRules.find? (·.condition node context)) :=
  Rule.first_eq_find? fun rule listed => planRules_safe rule listed node context

/-- Every planning rule turns a plannable schema into an encoding of what it allows. -/
theorem planRules_plan : ∀ rule ∈ planRules, rule.Plans := by
  intro rule listed
  rcases mem_planRules.mp listed with listed | listed | rfl
  · exact Choices.rules_plan rule listed
  · exact Integers.forall_rules Integers.rule_plans rule listed
  · exact Reals.anyNumber_plans

end SchemaPack
