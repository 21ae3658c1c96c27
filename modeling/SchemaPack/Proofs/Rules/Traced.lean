import SchemaPack.Rules.Basic
import SchemaPack.Proofs.Except

namespace SchemaPack

namespace Traced

variable {α β : Type}

theorem bind_ok {x : Traced α} {a : α} (h : x.result = .ok a) (f : α → Traced β) :
    x >>= f = ⟨x.events ++ (f a).events, (f a).result⟩ := by
  change Traced.bind x f = _
  simp only [Traced.bind, h]

theorem bind_error {x : Traced α} {stop : Stop} (h : x.result = .error stop)
    (f : α → Traced β) : x >>= f = ⟨x.events, .error stop⟩ := by
  change Traced.bind x f = _
  simp only [Traced.bind, h]

@[simp] theorem pure_result (a : α) : (pure a : Traced α).result = .ok a := rfl

@[simp] theorem pure_events (a : α) : (pure a : Traced α).events = [] := rfl

@[simp] theorem stop_result (stop : Stop) :
    (Traced.stop stop : Traced α).result = .error stop := rfl

@[simp] theorem stop_bind (stop : Stop) (f : α → Traced β) :
    Traced.stop stop >>= f = Traced.stop stop := rfl

@[simp] theorem emit_result (event : Event) : (emit event).result = .ok () := rfl

@[simp] theorem emit_events (event : Event) : (emit event).events = [event] := rfl

@[simp] theorem ofExcept_ok (a : α) : ofExcept (.ok a) = pure a := rfl

@[simp] theorem ofExcept_error (failure : Failure) :
    (ofExcept (Except.error failure) : Traced α) = .stop (.failed failure) := rfl

@[simp] theorem ofExcept_ok_bind (a : α) (f : α → Traced β) : ofExcept (.ok a) >>= f = f a := rfl

@[simp] theorem ofExcept_error_bind (failure : Failure) (f : α → Traced β) :
    ofExcept (Except.error failure) >>= f = .stop (.failed failure) := rfl

@[simp] theorem ofExcept_result_ok {result : Except Failure α} {a : α} :
    (ofExcept result).result = .ok a ↔ result = .ok a := by
  cases result with
  | ok => simp only [ofExcept_ok, pure_result, Except.ok.injEq]
  | error => simp only [ofExcept_error, stop_result, reduceCtorEq]

theorem ofExcept_uncrashed (result : Except Failure α) :
    (ofExcept result).result ≠ .error .crashed := by
  cases result with
  | ok | error => exact nofun

theorem bind_pure_id (x : Traced α) : (x >>= fun a => pure a) = x := by
  cases h : x.result with
  | ok a => rw [bind_ok h, pure_events, pure_result, List.append_nil, ← h]
  | error stop => rw [bind_error h, ← h]

theorem bind_assoc_step {γ : Type} (x : Traced α) (f : α → Traced β) (g : β → Traced γ) :
    x >>= f >>= g = x >>= fun a => f a >>= g := by
  cases h : x.result with
  | ok a =>
    have joined : (x >>= f).events = x.events ++ (f a).events := by rw [bind_ok h]
    have same : (x >>= f).result = (f a).result := by rw [bind_ok h]
    rw [bind_ok h fun a => f a >>= g]
    cases hf : (f a).result with
    | ok b => rw [bind_ok (same.trans hf), bind_ok hf, joined, List.append_assoc]
    | error stop => rw [bind_error (same.trans hf), bind_error hf, joined]
  | error stop =>
    have same : (x >>= f).result = .error stop := by rw [bind_error h]
    rw [bind_error same, bind_error h, bind_error h]

instance : LawfulMonad Traced :=
  LawfulMonad.mk' Traced bind_pure_id (fun a f => bind_ok (pure_result a) f) bind_assoc_step

theorem bind_congr_ok {x : Traced α} {f g : α → Traced β}
    (h : ∀ a, x.result = .ok a → f a = g a) : x >>= f = x >>= g := by
  cases hx : x.result with
  | ok a => rw [bind_ok hx, bind_ok hx, h a hx]
  | error stop => rw [bind_error hx, bind_error hx]

theorem bind_result_ok {x : Traced α} {f : α → Traced β} {b : β}
    (h : (x >>= f).result = .ok b) : ∃ a, x.result = .ok a ∧ (f a).result = .ok b := by
  cases hx : x.result with
  | ok a =>
    rw [bind_ok hx] at h
    exact ⟨a, rfl, h⟩
  | error stop =>
    rw [bind_error hx] at h
    cases h

theorem bind_result_error {x : Traced α} {f : α → Traced β} {stop : Stop}
    (h : (x >>= f).result = .error stop) : x.result = .error stop ∨
      ∃ a, x.result = .ok a ∧ (f a).result = .error stop := by
  cases given : x.result with
  | ok a =>
    rw [bind_ok given] at h
    exact .inr ⟨a, rfl, h⟩
  | error other =>
    rw [bind_error given] at h
    cases h
    exact .inl rfl

@[simp] theorem pure_applications (a : α) : (pure a : Traced α).applications = 0 := rfl

theorem bind_applications {x : Traced α} {a : α} (h : x.result = .ok a) (f : α → Traced β) :
    (x >>= f).applications = x.applications + (f a).applications := by
  rw [bind_ok h]
  simp only [applications, List.countP_append]

theorem ofExcept_bind_ok {result : Except Failure α} {f : α → Traced β} {b : β}
    (h : (ofExcept result >>= f).result = .ok b) : ∃ a, result = .ok a ∧ (f a).result = .ok b := by
  obtain ⟨a, given, later⟩ := bind_result_ok h
  exact ⟨a, ofExcept_result_ok.mp given, later⟩

end Traced

namespace Rule

variable {node : Json} {context : Context} {rules : List Rule}

theorem first_cases (node : Json) (context : Context) (rules : List Rule) :
    first node context rules = .stop .crashed ∨
      first node context rules = pure (rules.find? (·.condition node context)) := by
  induction rules with
  | nil => exact .inr rfl
  | cons rule rest ih =>
    rw [first, List.find?_cons]
    split
    · exact .inl rfl
    · split
      · rename_i holds
        rw [holds]
        exact .inr rfl
      · rename_i fails
        rw [Bool.eq_false_iff.mpr fails]
        exact ih

theorem first_result_ok {applied : Option Rule}
    (h : (first node context rules).result = .ok applied) :
    applied = rules.find? (·.condition node context) := by
  rcases first_cases node context rules with crash | same
  · rw [crash] at h
    cases h
  · rw [same] at h
    exact (Except.ok.inj h).symm

def Idle (rules : List Rule) (node : Json) (context : Context) : Prop :=
  ∀ rule ∈ rules, rule.condition node context = false ∧ rule.crashes node context = false

theorem Idle.unmatched (idle : Idle rules node context) :
    ∀ rule ∈ rules, rule.condition node context = false :=
  fun rule listed => (idle rule listed).1

theorem first_of_idle (idle : Idle rules node context) :
    first node context rules = pure none := by
  induction rules with
  | nil => rfl
  | cons rule rest ih =>
    obtain ⟨⟨fails, safe⟩, later⟩ := List.forall_mem_cons.mp idle
    rw [first, safe, fails]
    exact ih later

theorem idle_of_first (h : (first node context rules).result = .ok none) :
    Idle rules node context := by
  induction rules with
  | nil => exact nofun
  | cons rule rest ih =>
    rw [first] at h
    split at h
    · cases h
    · rename_i safe
      split at h
      · cases h
      · rename_i fails
        exact List.forall_mem_cons.mpr
          ⟨⟨Bool.eq_false_iff.mpr fails, Bool.eq_false_iff.mpr safe⟩, ih h⟩

theorem first_of_only {rule : Rule} (listed : rule ∈ rules)
    (matched : rule.condition node context = true) (safe : rule.crashes node context = false)
    (only : ∀ other ∈ rules, other ≠ rule →
      other.condition node context = false ∧ other.crashes node context = false) :
    first node context rules = pure (some rule) := by
  induction rules with
  | nil => cases listed
  | cons other rest ih =>
    rw [first]
    by_cases same : other = rule
    · rw [same, safe, matched]
      rfl
    · obtain ⟨fails, uncrashed⟩ := only other List.mem_cons_self same
      have later := (List.mem_cons.mp listed).resolve_left (Ne.symm same)
      rw [uncrashed, fails]
      exact ih later fun other inside => only other (List.mem_cons_of_mem _ inside)

/-- Where the first rule for one node is found without a crash, it is for another node that passes
    no rule by that matches the first one, and crashes on no rule that is safe there. -/
theorem first_spared {other : Json} {context' : Context} {applied : Option Rule}
    (found : (first node context rules).result = .ok applied)
    (matched : ∀ rule ∈ rules, applied = some rule → rule.condition other context' = true)
    (spared : ∀ rule ∈ rules, rule.crashes node context = false →
      rule.crashes other context' = false) :
    ∃ also, first other context' rules = pure also := by
  induction rules with
  | nil => exact ⟨none, rfl⟩
  | cons rule rest ih =>
    rw [first] at found ⊢
    split at found
    · cases found
    · rename_i safe
      rw [spared rule List.mem_cons_self (Bool.eq_false_iff.mpr safe)]
      by_cases here : rule.condition other context' = true
      · exact ⟨some rule, if_pos here⟩
      · rw [if_neg here]
        split at found
        · cases found
          exact absurd (matched rule List.mem_cons_self rfl) here
        · exact ih found (fun rule listed => matched rule (List.mem_cons_of_mem _ listed))
            fun rule listed => spared rule (List.mem_cons_of_mem _ listed)

def Safe (rule : Rule) : Prop := ∀ node context, rule.crashes node context = false

theorem Idle.of_safe (safe : ∀ rule ∈ rules, rule.Safe)
    (unmatched : ∀ rule ∈ rules, rule.condition node context = false) : Idle rules node context :=
  fun rule listed => ⟨unmatched rule listed, safe rule listed node context⟩

theorem first_eq_find? (safe : ∀ rule ∈ rules, rule.crashes node context = false) :
    first node context rules = pure (rules.find? (·.condition node context)) := by
  induction rules with
  | nil => rfl
  | cons rule rest ih =>
    obtain ⟨here, later⟩ := List.forall_mem_cons.mp safe
    rw [first, here, List.find?_cons]
    cases rule.condition node context with
    | true => rfl
    | false => exact ih later

end Rule

end SchemaPack
