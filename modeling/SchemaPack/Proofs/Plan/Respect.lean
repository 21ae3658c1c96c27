import SchemaPack.Proofs.Plan.Footprint
import SchemaPack.Proofs.Rules.Lockstep

namespace SchemaPack

open Json

theorem Json.Respelled.wrap {f : Number → Number} {name : String} {a b : Json}
    (same : Respelled f a b) : Respelled f (Encoding.wrap name a) (Encoding.wrap name b) := by
  have names : ["$schema", "name", "options"].Nodup := by decide
  refine Respelled.of_aligned names ?_ (.refl _)
  exact .cons ⟨rfl, .refl trivial⟩ (.cons ⟨rfl, .refl trivial⟩ (.cons ⟨rfl, same⟩ .nil))

theorem Json.Respelled.single {f : Number → Number} {name : String} {a b : Json}
    (same : Respelled f a b) : Respelled f (.object [(name, a)]) (.object [(name, b)]) := by
  refine Respelled.of_aligned (List.nodup_singleton name) ?_ (.refl _)
  exact .cons ⟨rfl, same⟩ .nil

theorem IntegerDomain.document_distinct (domain : IntegerDomain) : domain.document.Distinct := by
  unfold IntegerDomain.document
  split
  · split <;> simp [Encoding.wrap, Distinct, DistinctMembers, Encoding.signed, Encoding.unsigned]
  all_goals simp [Encoding.wrap, Distinct, DistinctMembers, Encoding.signed, Encoding.unsigned]

section Respelling

variable {f : Number → Number} (respelling : Respelling f) {x y : Json}
include respelling

theorem Choices.replace_respelled (same : Respelled f x y) (name : String) :
    Respelled f (replace x name) (replace y name) := by
  have resemblance := resemblance_respelled respelling
  have choices := resemblance.arrayAt? (resemblance.matches_of same "enum")
  unfold replace
  rcases rel_cases choices with ⟨left, right⟩ | ⟨as, bs, left, right, items⟩
  · rw [left, right]
    exact same
  · rw [left, right]
    exact (Respelled.single (resemblance.array.mpr items)).wrap

theorem Choices.single_respelled (same : Respelled f x y) :
    Respelled f (single.transform x) (single.transform y) := by
  have resemblance := resemblance_respelled respelling
  have choices := resemblance.arrayAt? (resemblance.matches_of same "enum")
  simp only [single]
  rcases rel_cases choices with ⟨left, right⟩ | ⟨as, bs, left, right, items⟩
  · rw [left, right]
    exact same
  · rw [left, right]
    cases items with
    | nil => exact same
    | cons first _ => exact first.single.wrap

theorem planRules_respect : ∀ rule ∈ planRules, rule.Respects (Respelled f) := by
  have resemblance := resemblance_respelled respelling
  have transforms : ∀ rule ∈ planRules, ∀ x y, Respelled f x y →
      Respelled f (rule.transform x) (rule.transform y) := by
    intro rule listed x y same
    rcases mem_planRules.mp listed with listed | listed | rfl
    · simp only [Choices.rules, List.mem_cons, List.not_mem_nil, or_false] at listed
      rcases listed with rfl | rfl | rfl | rfl
      · exact Choices.single_respelled respelling same
      · exact Choices.replace_respelled respelling same _
      · exact Choices.replace_respelled respelling same _
      · exact Choices.replace_respelled respelling same _
    · have each : ∀ rule ∈ Integers.rules, Respelled f (rule.transform x) (rule.transform y) := by
        apply Integers.forall_rules
        intro name kind multiplied
        have domains := IntegerDomain.of?_congr (fun name _ => resemblance.matches_of same name)
          resemblance multiplied
        simp only [Integers.rule, domains]
        cases IntegerDomain.of? y multiplied with
        | none => exact same
        | some domain => exact .refl domain.document_distinct
      exact each rule listed
    · exact .refl (by decide : (Encoding.wrap "DOUBLE_VARINT_TUPLE" .emptyObject).Distinct)
  intro rule listed
  have safe := planRules_safe rule listed
  refine ⟨?_, fun x y context _ => (safe x context).trans (safe y context).symm,
    fun x y _ same _ => transforms rule listed x y same⟩
  intro x y context same
  exact planRules_congr (fun name _ => resemblance.matches_of same name) context resemblance rule
    listed

end Respelling

end SchemaPack
