import SchemaPack.Proofs.Rules.Memory
import SchemaPack.Proofs.Rules.Uniform

namespace SchemaPack

def Event.isPass : Event → Bool
  | .passed _ _ => true
  | _ => false

namespace Traced

variable {α β : Type}

def passes (x : Traced α) : Nat := x.events.countP (·.isPass)

theorem bind_passes {x : Traced α} {a : α} (h : x.result = .ok a) (f : α → Traced β) :
    (x >>= f).passes = x.passes + (f a).passes := by
  rw [bind_ok h]
  simp only [passes, List.countP_append]

theorem bind_passes_error {x : Traced α} {stop : Stop} (h : x.result = .error stop)
    (f : α → Traced β) : (x >>= f).passes = x.passes := by
  rw [bind_error h]
  rfl

theorem bind_passes_eq_zero {x : Traced α} {f : α → Traced β} (first : x.passes = 0)
    (later : ∀ a, (f a).passes = 0) : (x >>= f).passes = 0 := by
  cases given : x.result with
  | ok a => rw [bind_passes given, first, later]
  | error stop => rw [bind_passes_error given, first]

/-- A computation without a pass in it. The second of two is not looked at. -/
def passless (resolver : Resolver) : Uniform resolver where
  holds x _ := x.passes = 0
  pure _ := rfl
  bind := bind_passes_eq_zero
  short _ := rfl
  crash := rfl
  context _ _ _ := rfl
  examined _ _ _ := rfl

end Traced

namespace Fresh

variable {rules : List Rule} {walker : Walker} {resolver : Resolver}

theorem visit_passes (steps : Nat) (inherited : String) (pointer : Pointer) (node : Json) :
    (visit rules walker resolver steps inherited pointer node).passes = 0 :=
  visit_uniform (Traced.passless resolver) (Nat.le_refl steps)

end Fresh

end SchemaPack
