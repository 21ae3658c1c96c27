import SchemaPack.Proofs.Rules.Traced
import SchemaPack.Rules.Saturation

namespace SchemaPack

theorem find?_eq_of_perm {α : Type} {items others : List α} {p : α → Bool}
    (perm : items.Perm others) (unique : (others.filter p).length ≤ 1) :
    items.find? p = others.find? p := by
  have same : items.filter p = others.filter p := by
    have qualified := perm.filter p
    cases found : others.filter p with
    | nil =>
      rw [found] at qualified
      exact qualified.eq_nil
    | cons item rest =>
      rw [found] at unique qualified
      have alone : rest = [] := by simpa using unique
      rw [alone] at qualified ⊢
      exact qualified.eq_singleton
  rw [← List.head?_filter, ← List.head?_filter, same]

section Congruence

variable {rules others : List Rule}
  (same : ∀ node context, Rule.first node context rules = Rule.first node context others)
  (walker : Walker) (resolver : Resolver)

include same

namespace Walk

theorem settle_congr (inherited : String) (pointer : Pointer) (steps : Nat) (changed : Bool)
    (node : Json) : settle rules resolver inherited pointer steps changed node =
      settle others resolver inherited pointer steps changed node := by
  induction steps generalizing changed node with
  | zero => rfl
  | succ steps ih => simp only [settle, same, ih]

theorem visit_congr (steps : Nat) (inherited : String) :
    visit rules walker resolver steps inherited = visit others walker resolver steps inherited := by
  induction steps generalizing inherited with
  | zero => rfl
  | succ steps ih =>
    ext pointer node : 2
    simp only [visit, settle_congr same, ih]

theorem runPasses_congr (dialect : String) (steps number : Nat) (document : Json) :
    runPasses rules walker resolver dialect steps number document =
      runPasses others walker resolver dialect steps number document := by
  induction steps generalizing number document with
  | zero => rfl
  | succ steps ih => simp only [runPasses, visit_congr same, ih]

end Walk

/-- All that a run takes from its rules is the first one that matches. -/
theorem saturate_congr (default : Option String) (document : Json) (limit : Nat) :
    saturate rules resolver default document limit walker =
      saturate others resolver default document limit walker := by
  simp only [saturate, Walk.runPasses_congr same]

end Congruence

end SchemaPack
