import SchemaPack.Proofs.Json.Resemblance
import SchemaPack.Proofs.Plan.Soundness
import SchemaPack.Proofs.Rules.Invariant

namespace SchemaPack

open Json

section Reading

variable {D : Json → Json → Prop} {x y : Json} (same : ∀ name ∈ Keyword.plain, Matches D x y name)
  (context : Context)

include same

theorem isPlannable_congr : isPlannable x context = isPlannable y context := by
  simp only [isPlannable, Encoding.isEncoding, (same "name" (by decide)).contains,
    (same "options" (by decide)).contains]

variable (resemblance : Resemblance D)
include resemblance

theorem enum_congr : Option.Rel (List.Forall₂ D) (x.arrayAt? "enum") (y.arrayAt? "enum") :=
  resemblance.arrayAt? (same "enum" (by decide))

theorem Choices.count?_congr : count? x context = count? y context := by
  have lengths : (x.arrayAt? "enum").map (·.length) = (y.arrayAt? "enum").map (·.length) := by
    rcases rel_cases (enum_congr same resemblance) with ⟨left, right⟩ | ⟨as, bs, left, right, items⟩
    · rw [left, right]
    · rw [left, right, Option.map_some, Option.map_some, items.length_eq]
  rw [count?, count?, isPlannable_congr same context, lengths]

theorem Multiplier.of_congr : of x = of y := by
  unfold of
  rcases rel_cases (same "multipleOf" (by decide)) with ⟨left, right⟩ | ⟨a, b, left, right, value⟩
  · rw [left, right]
  · rw [left, right]
    dsimp only
    rcases rel_cases (resemblance.number? value) with ⟨here, there⟩ | ⟨n, m, here, there, number⟩
    · rw [here, there]
    · rw [here, there, Option.filter_some, Option.filter_some, resemblance.integral number]
      cases m.isIntegral with
      | true => rw [if_pos rfl, if_pos rfl, Option.bind_some, Option.bind_some,
          resemblance.toInt64? number]
      | false => rfl

theorem toInt64?_congr {keyword : String} (plain : keyword ∈ Keyword.plain) (rounding : Rounding) :
    (x.numberAt? keyword).bind (·.toInt64? rounding) =
      (y.numberAt? keyword).bind (·.toInt64? rounding) := by
  rcases rel_cases (resemblance.numberAt? (same keyword plain)) with
    ⟨left, right⟩ | ⟨a, b, left, right, value⟩
  · rw [left, right]
  · rw [left, right, Option.bind_some, Option.bind_some, resemblance.toInt64? value]

theorem IntegerDomain.of?_congr (multiplied : Bool) : of? x multiplied = of? y multiplied := by
  simp only [of?, bound?, integerMinimum?, integerMaximum?,
    resemblance.hasType (same "type" (by decide)), Multiplier.of_congr same resemblance,
    toInt64?_congr same resemblance (by decide : "minimum" ∈ _),
    toInt64?_congr same resemblance (by decide : "maximum" ∈ _),
    (same "enum" (by decide)).contains, (same "minimum" (by decide)).contains,
    (same "maximum" (by decide)).contains]

theorem planRules_congr : ∀ rule ∈ planRules,
    rule.condition x context = rule.condition y context := by
  intro rule listed
  rcases mem_planRules.mp listed with listed | listed | rfl
  · have counted := Choices.count?_congr same context resemblance
    simp only [Choices.rules, List.mem_cons, List.not_mem_nil, or_false] at listed
    rcases listed with rfl | rfl | rfl | rfl <;>
      simp only [Choices.single, Choices.byteAtRoot, Choices.byte, Choices.large, counted]
  · have each : ∀ rule ∈ Integers.rules,
        rule.condition x context = rule.condition y context := by
      apply Integers.forall_rules
      intro name kind multiplied
      simp only [Integers.rule, isPlannable_congr same context,
        IntegerDomain.of?_congr same resemblance]
    exact each rule listed
  · simp only [Reals.anyNumber, isPlannable_congr same context,
      resemblance.hasType (same "type" (by decide)), (same "enum" (by decide)).contains]

end Reading

end SchemaPack
