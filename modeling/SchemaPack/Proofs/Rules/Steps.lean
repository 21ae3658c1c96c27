import SchemaPack.Proofs.Rules.Memory
import SchemaPack.Proofs.Rules.Uniform

namespace SchemaPack

/-- A computation with a larger bound on its steps: the same one, unless the smaller bound was
    too small. -/
def Traced.Extends {α : Type} (x y : Traced α) : Prop := x.result = .error .outOfSteps ∨ y = x

namespace Traced.Extends

variable {α β : Type}

theorem refl (x : Traced α) : Extends x x := .inr rfl

theorem stop (y : Traced α) : Extends (.stop .outOfSteps) y := .inl rfl

theorem bind {x y : Traced α} {f g : α → Traced β} (first : Extends x y)
    (later : ∀ a, Extends (f a) (g a)) : Extends (x >>= f) (y >>= g) := by
  rcases first with short | same
  · refine .inl ?_
    rw [bind_error short]
  · subst same
    cases given : y.result with
    | ok a =>
      rw [bind_ok given, bind_ok given]
      rcases later a with short | same
      · exact .inl short
      · exact .inr (by rw [same])
    | error stop =>
      refine .inr ?_
      rw [bind_error given, bind_error given]

theorem bind_right {x : Traced α} {f g : α → Traced β} (later : ∀ a, Extends (f a) (g a)) :
    Extends (x >>= f) (x >>= g) :=
  bind (refl x) later

theorem eq_of_ok {x y : Traced α} {a : α} (h : Extends x y) (given : x.result = .ok a) :
    y = x := by
  rcases h with short | same
  · rw [given] at short
    cases short
  · exact same

theorem eq_of_enough {x y : Traced α} (h : Extends x y) (enough : x.result ≠ .error .outOfSteps) :
    y = x := by
  rcases h with short | same
  · exact absurd short enough
  · exact same

def uniform (resolver : Resolver) : Traced.Uniform resolver where
  holds := Extends
  pure a := refl (pure a)
  bind := bind
  short := stop
  crash := refl _
  context _ _ _ := refl _
  examined _ _ _ := refl _

end Traced.Extends

namespace Fresh

open Traced (Extends)

variable {rules : List Rule} {walker : Walker} {resolver : Resolver}

theorem visit_extends {inherited : String} {pointer : Pointer} {steps more : Nat} {node : Json}
    (le : steps ≤ more) :
    Extends (visit rules walker resolver steps inherited pointer node)
      (visit rules walker resolver more inherited pointer node) :=
  visit_uniform (Extends.uniform resolver) le

theorem runPasses_extends {dialect : String} {steps more number applied : Nat} {document : Json}
    (le : steps ≤ more) :
    Extends (runPasses rules walker resolver dialect steps number applied document)
      (runPasses rules walker resolver dialect more number applied document) := by
  induction steps generalizing more number applied document with
  | zero => exact Extends.stop _
  | succ steps ih =>
    obtain ⟨more, rfl⟩ : ∃ fewer, more = fewer + 1 := ⟨more - 1, by omega⟩
    rw [runPasses, runPasses]
    rcases visit_extends (by omega : steps ≤ more) with short | same
    · refine .inl ?_
      rw [Traced.bind_error short]
    · rw [same]
      refine Extends.bind_right fun passed => Extends.bind_right fun _ => ?_
      split
      · exact ih (by omega)
      · exact Extends.refl _

end Fresh

/-- A run with a larger limit is the same run, unless the smaller limit was reached. -/
theorem saturate_extends (rules : List Rule) (walker : Walker) (resolver : Resolver)
    (default : Option String) (document : Json) {limit more : Nat} (le : limit ≤ more) :
    Traced.Extends (saturate rules resolver default document limit walker)
      (saturate rules resolver default document more walker) := by
  rw [saturate_eq, saturate_eq]
  exact Traced.Extends.bind_right fun _ => Fresh.runPasses_extends le

end SchemaPack
