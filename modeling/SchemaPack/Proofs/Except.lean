namespace SchemaPack

variable {ε α β : Type}

instance decidableEqResult [DecidableEq ε] [DecidableEq α] : DecidableEq (Except ε α)
  | .ok a, .ok b =>
    if same : a = b then isTrue (by rw [same]) else isFalse fun equal => same (Except.ok.inj equal)
  | .error failure, .error other =>
    if same : failure = other then isTrue (by rw [same])
    else isFalse fun equal => same (Except.error.inj equal)
  | .ok _, .error _ => isFalse (by intro equal; cases equal)
  | .error _, .ok _ => isFalse (by intro equal; cases equal)

theorem bind_eq_ok {x : Except ε α} {f : α → Except ε β} {b : β} :
    x >>= f = .ok b ↔ ∃ a, x = .ok a ∧ f a = .ok b := by
  cases x with
  | error e =>
    constructor
    · intro fine
      cases fine
    · rintro ⟨_, fine, -⟩
      cases fine
  | ok a =>
    constructor
    · exact fun fine => ⟨a, rfl, fine⟩
    · rintro ⟨_, same, fine⟩
      cases same
      exact fine

theorem exists_of_mapM_eq_ok {f : α → Except ε β} {inputs : List α} {results : List β} {b : β}
    (mapped : inputs.mapM f = .ok results) (member : b ∈ results) : ∃ a ∈ inputs, f a = .ok b := by
  induction inputs generalizing results with
  | nil =>
    cases mapped
    exact absurd member List.not_mem_nil
  | cons a rest ih =>
    rw [List.mapM_cons] at mapped
    obtain ⟨first, ran, mapped⟩ := bind_eq_ok.mp mapped
    obtain ⟨others, more, last⟩ := bind_eq_ok.mp mapped
    cases last
    rcases List.mem_cons.mp member with rfl | later
    · exact ⟨a, List.mem_cons_self, ran⟩
    · obtain ⟨other, listed, ran⟩ := ih more later
      exact ⟨other, List.mem_cons_of_mem _ listed, ran⟩

end SchemaPack
