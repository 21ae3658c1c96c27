import SchemaPack.Proofs.Rules.Traced

namespace SchemaPack

/-- A computation that comes to its end with no more applications of rules than a budget allows,
    and where it gives a result, leaves enough of the budget for what the result needs. -/
structure Traced.Within {α : Type} (budget : Nat) (x : Traced α) (holds : α → Prop)
    (needs : α → Nat) : Prop where
  ends : x.result ≠ .error .outOfSteps
  spends : x.applications ≤ budget
  leaves : ∀ a, x.result = .ok a → holds a ∧ x.applications + needs a ≤ budget

theorem Except.ok_ends {α : Type} (a : α) : (.ok a : Except Stop α) ≠ .error .outOfSteps := by
  intro short
  cases short

namespace Traced.Within

variable {α β : Type} {budget : Nat} {holds : α → Prop} {needs : α → Nat}

theorem pure {a : α} (given : holds a) (enough : needs a ≤ budget) :
    Within budget (pure a : Traced α) holds needs where
  ends := Except.ok_ends a
  spends := Nat.zero_le _
  leaves := by
    intro b same
    cases same
    refine ⟨given, ?_⟩
    rw [pure_applications]
    omega

theorem crash : Within budget (.stop .crashed : Traced α) holds needs where
  ends := nofun
  spends := Nat.zero_le _
  leaves := nofun

theorem bind {x : Traced α} {f : α → Traced β} {later : β → Prop} {rest : β → Nat}
    (first : Within budget x holds needs)
    (next : ∀ a, holds a → needs a ≤ budget → Within (needs a) (f a) later rest) :
    Within budget (x >>= f) later rest := by
  cases given : x.result with
  | ok a =>
    obtain ⟨held, left⟩ := first.leaves a given
    have second := next a held (by omega)
    have total := bind_applications given f
    have spent := second.spends
    have same : (x >>= f).result = (f a).result := by rw [bind_ok given]
    refine ⟨?_, by omega, ?_⟩
    · rw [same]
      exact second.ends
    · intro b result
      rw [same] at result
      obtain ⟨kept, fewer⟩ := second.leaves b result
      exact ⟨kept, by omega⟩
  | error stop =>
    have stopped := bind_error given f
    refine ⟨?_, ?_, ?_⟩
    · intro short
      rw [stopped] at short
      cases short
      exact first.ends given
    · have spends := first.spends
      rw [stopped]
      exact spends
    · intro b result
      rw [stopped] at result
      cases result

/-- What the budget has beyond the need of a part is left after it. -/
theorem frame {x : Traced α} (within : Within budget x holds needs) (more : Nat) :
    Within (budget + more) x holds fun a => needs a + more where
  ends := within.ends
  spends := Nat.le_trans within.spends (Nat.le_add_right _ _)
  leaves := by
    intro a given
    obtain ⟨held, left⟩ := within.leaves a given
    exact ⟨held, by omega⟩

theorem frame_left {x : Traced α} (within : Within budget x holds needs) (more : Nat) :
    Within (more + budget) x holds fun a => more + needs a where
  ends := within.ends
  spends := Nat.le_trans within.spends (Nat.le_add_left _ _)
  leaves := by
    intro a given
    obtain ⟨held, left⟩ := within.leaves a given
    exact ⟨held, by omega⟩

theorem ofExcept (result : Except Failure α) :
    Within budget (Traced.ofExcept result) (fun a => result = .ok a) fun _ => budget where
  ends := by
    cases result with
    | ok | error => exact nofun
  spends := Nat.zero_le _
  leaves := fun _ given =>
    ⟨ofExcept_result_ok.mp given, Nat.le_of_eq (Nat.zero_add _)⟩

end Traced.Within

end SchemaPack
