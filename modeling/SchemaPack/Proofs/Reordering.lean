import SchemaPack.Compile
import SchemaPack.Proofs.Canonical.Respect
import SchemaPack.Proofs.Plan.Respect

namespace SchemaPack

open Json

section Stages

variable {f : Number → Number} (respelling : Respelling f) {x y : Json} (same : Respelled f x y)
  (resolver : Resolver) (default : Option String) (limit : Nat)

include respelling same

theorem canonicalize_lockstep :
    (canonicalize resolver default x limit).Lockstep (Respelled f)
      (canonicalize resolver default y limit) :=
  saturate_lockstep respelling (canonicalRules_respect respelling) same _ default limit _

theorem plan_lockstep :
    (plan resolver default x limit).Lockstep (Respelled f) (plan resolver default y limit) := by
  rw [plan, plan, ofDocument_congr respelling same]
  apply (Traced.Lockstep.refl (fun _ => rfl) _).bind
  rintro dialect _ rfl
  apply (Traced.Lockstep.refl (fun _ => rfl) _).bind
  rintro base _ rfl
  split
  · exact .stop _ _
  · apply (saturate_lockstep respelling (planRules_respect respelling) same _ default limit _).bind
    intro planned other related
    have resemblance := resemblance_respelled respelling
    rw [ofDocument_congr respelling related]
    apply (Traced.Lockstep.refl (fun _ => rfl) _).bind
    rintro dialect _ rfl
    have encoded : Encoding.isEncoding dialect planned = Encoding.isEncoding dialect other := by
      rw [Encoding.isEncoding, Encoding.isEncoding,
        (resemblance.matches_of related "name").contains,
        (resemblance.matches_of related "options").contains]
    rw [encoded]
    split
    · exact .pure related
    · apply (Traced.Lockstep.emit rfl).bind
      exact fun _ _ _ => .pure (.refl (by decide))

theorem compile_lockstep :
    (compile resolver default x limit).Lockstep (Respelled f)
      (compile resolver default y limit) := by
  apply (canonicalize_lockstep respelling same resolver default limit).bind
  exact fun _ _ related => plan_lockstep respelling related resolver default limit

theorem Stage.run_lockstep (stage : Stage) :
    (stage.run resolver default x limit).Lockstep (Respelled f)
      (stage.run resolver default y limit) := by
  cases stage with
  | compile => exact compile_lockstep respelling same resolver default limit
  | canonicalize => exact canonicalize_lockstep respelling same resolver default limit
  | plan => exact plan_lockstep respelling same resolver default limit

end Stages

/-- The order of members makes no difference to a stage: it succeeds on both of two documents that
    differ in nothing else or on neither, and its results differ in nothing else. -/
theorem run_reordered (stage : Stage) (resolver : Resolver) (default : Option String)
    (limit : Nat) {x y : Json} (left : x.Distinct) (right : y.Distinct) (same : Reordered x y) :
    ((∃ a, (stage.run resolver default x limit).result = .ok a) ↔
        ∃ b, (stage.run resolver default y limit).result = .ok b) ∧
      ∀ a b, (stage.run resolver default x limit).result = .ok a →
        (stage.run resolver default y limit).result = .ok b → Reordered a b := by
  have step := stage.run_lockstep respelling_id (respelled_id.mpr ⟨left, right, same⟩) resolver
    default limit
  exact ⟨step.isOk_iff, fun a b ok also => (respelled_id.mp (step.related ok also)).2.2⟩

theorem run_reordered_branches :
    let first := Json.object [("minLength", .number (.integer 1)), ("type", .string "string")]
    let second := Json.object [("type", .string "string"), ("minLength", .number (.integer 1))]
    let x := Json.object [("type", .string "null"), ("allOf", .array [first, second]),
      ("enum", .array [.object [("a", .null), ("b", .null)]])]
    let y := Json.object [("enum", .array [.object [("b", .null), ("a", .null)]]),
      ("allOf", .array [first, first]), ("type", .string "null")]
    let run := fun document =>
      Stage.compile.run Dialect.official (some Dialect.draft202012) document 20
    x.Distinct ∧ y.Distinct ∧ Reordered x y ∧ (run x).result ≠ (run y).result ∧
      ((∃ a, (run x).result = .ok a) ↔ ∃ b, (run y).result = .ok b) ∧
        ∀ a b, (run x).result = .ok a → (run y).result = .ok b → Reordered a b := by
  intro first second x y run
  have left : x.Distinct := by decide +kernel
  have right : y.Distinct := by decide +kernel
  have same : Reordered x y := by decide +kernel
  have differ : (run x).result ≠ (run y).result := by decide +kernel
  exact ⟨left, right, same, differ, run_reordered .compile _ _ 20 left right same⟩

end SchemaPack
