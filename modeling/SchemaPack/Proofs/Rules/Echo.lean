import SchemaPack.Proofs.Rules.FixedPoint
import SchemaPack.Proofs.Rules.Passes
import SchemaPack.Proofs.Rules.Places

namespace SchemaPack

namespace Traced

variable {α β γ δ : Type}

/-- A computation that applies no rule and looks at nothing that another did not look at. -/
structure Echoes (x : Traced α) (y : Traced β) : Prop where
  rewritten : y.rewritten = []
  examined : ∀ place ∈ y.examined, place ∈ x.examined

namespace Echoes

theorem of_nil {x : Traced α} {y : Traced β} (none : y.events = []) : x.Echoes y := by
  constructor <;> simp [Traced.examined, Traced.rewritten, none]

theorem pure (a : α) (b : β) : (Pure.pure a : Traced α).Echoes (Pure.pure b : Traced β) :=
  of_nil rfl

theorem bind {x : Traced α} {y : Traced β} {a : α} {f : α → Traced γ} {g : β → Traced δ}
    (given : x.result = .ok a) (first : x.Echoes y)
    (later : ∀ b, y.result = .ok b → (f a).Echoes (g b)) : (x >>= f).Echoes (y >>= g) := by
  have longer := bind_examined given f
  cases again : y.result with
  | error failure =>
    constructor
    · rw [bind_rewritten_error again, first.rewritten]
    · intro place listed
      rw [bind_examined_error again] at listed
      rw [longer, List.mem_append]
      exact .inl (first.examined place listed)
  | ok b =>
    have second := later b again
    constructor
    · rw [bind_rewritten again, first.rewritten, second.rewritten, List.append_nil]
    · intro place listed
      rw [bind_examined again, List.mem_append] at listed
      rw [longer, List.mem_append]
      exact listed.imp (first.examined place) (second.examined place)

theorem applications {x : Traced α} {y : Traced β} (echoes : x.Echoes y) : y.applications = 0 := by
  rw [applications_eq, echoes.rewritten, List.length_nil]

end Echoes

theorem Tidy.of_examined {x : Traced α} {y : Traced β} {region : Pointer → Prop}
    (tidy : x.Tidy region) (changes : y.rewritten = x.rewritten)
    (places : ∀ place ∈ y.examined, place ∈ x.examined) : y.Tidy region := by
  constructor
  · exact fun place listed => tidy.within place (places place listed)
  · rw [changes]
    exact tidy.once
  · rw [changes]
    exact fun outer applied inner listed => tidy.closed outer applied inner (places inner listed)

end Traced

namespace Fresh

variable {walker : Walker}

theorem visitMembers_echoes {visit again : String → Json → Traced Json}
    (inside : ∀ name value result, (visit name value).result = .ok result →
      (visit name value).Echoes (again name result))
    {members results : Members} (h : (visitMembers visit members).result = .ok results) :
    (visitMembers visit members).Echoes (visitMembers again results) := by
  induction members generalizing results with
  | nil =>
    cases h
    exact .pure _ _
  | cons entry rest ih =>
    obtain ⟨result, first, later⟩ := Traced.bind_result_ok h
    obtain ⟨others, second, last⟩ := Traced.bind_result_ok later
    cases last
    apply Traced.Echoes.bind first (inside _ _ _ first)
    intro _ _
    apply Traced.Echoes.bind second (ih second)
    exact fun _ _ => .pure _ _

section Children

variable {visit again : Pointer → Json → Traced Json}
  (inside : ∀ pointer node result, (visit pointer node).result = .ok result →
    (visit pointer node).Echoes (again pointer result))

include inside

theorem visitItems_echoes {pointer : Pointer} {start : Nat} {items results : List Json}
    (h : (visitItems visit pointer start items).result = .ok results) :
    (visitItems visit pointer start items).Echoes (visitItems again pointer start results) := by
  induction items generalizing start results with
  | nil =>
    cases h
    exact .pure _ _
  | cons item rest ih =>
    obtain ⟨result, first, later⟩ := Traced.bind_result_ok h
    obtain ⟨others, second, last⟩ := Traced.bind_result_ok later
    cases last
    apply Traced.Echoes.bind first (inside _ _ _ first)
    intro _ _
    apply Traced.Echoes.bind second (ih second)
    exact fun _ _ => .pure _ _

theorem visitKeyword_echoes {vocabularies : Vocabularies} {pointer : Pointer} {name : String}
    {value result : Json}
    (h : (visitKeyword walker visit vocabularies pointer name value).result = .ok result) :
    (visitKeyword walker visit vocabularies pointer name value).Echoes
      (visitKeyword walker again vocabularies pointer name result) := by
  unfold visitKeyword at h ⊢
  generalize (walker vocabularies name).map Keyword.role = role at h ⊢
  rcases role with _ | role
  · exact .pure _ _
  · cases role with
    | subschema => exact inside _ _ _ h
    | subschemaList =>
      cases value with
      | array items =>
        obtain ⟨results, first, last⟩ := Traced.bind_result_ok h
        cases last
        apply Traced.Echoes.bind first (visitItems_echoes inside first)
        exact fun _ _ => .pure _ _
      | null | bool | number | string | object =>
        cases h
        exact .pure _ _
    | subschemaMap =>
      cases value with
      | object members =>
        obtain ⟨results, first, last⟩ := Traced.bind_result_ok h
        cases last
        dsimp only
        rw [visitEntries_eq] at first ⊢
        rw [visitEntries_eq]
        apply Traced.Echoes.bind first (visitMembers_echoes (fun _ => inside _) first)
        exact fun _ _ => .pure _ _
      | null | bool | number | string | array =>
        cases h
        exact .pure _ _
    | identity | reference | comment | assertion | descriptive => exact .pure _ _

theorem visitKeywords_echoes {vocabularies : Vocabularies} {pointer : Pointer}
    {entries results : List (String × Json)}
    (h : (visitKeywords walker visit vocabularies pointer entries).result = .ok results) :
    (visitKeywords walker visit vocabularies pointer entries).Echoes
      (visitKeywords walker again vocabularies pointer results) := by
  rw [visitKeywords_eq] at h
  rw [visitKeywords_eq, visitKeywords_eq]
  refine visitMembers_echoes ?_ h
  exact fun _ _ _ => visitKeyword_echoes inside

end Children

section Passes

variable {rules : List Rule} {resolver : Resolver} {dialect : String} {steps number applied : Nat}
  {document passed : Json}

theorem runPasses_of_unchanged
    (first : (visit rules walker resolver steps dialect .root document).Idle passed) :
    runPasses rules walker resolver dialect (steps + 1) number applied document =
      ⟨(visit rules walker resolver steps dialect .root document).events ++
        [.passed number false, .settled number applied], .ok passed⟩ := by
  rw [runPasses]
  dsimp only
  rw [Traced.bind_ok first.1, first.2]
  rfl

theorem runPasses_of_changed
    (first : (visit rules walker resolver steps dialect .root document).result = .ok passed)
    (changed : 0 < (visit rules walker resolver steps dialect .root document).applications) :
    let rest := runPasses rules walker resolver dialect steps (number + 1)
      (applied + (visit rules walker resolver steps dialect .root document).applications) passed
    runPasses rules walker resolver dialect (steps + 1) number applied document =
      ⟨(visit rules walker resolver steps dialect .root document).events ++
        .passed number true :: rest.events, rest.result⟩ := by
  rw [runPasses]
  dsimp only
  rw [Traced.bind_ok first, Traced.bind_ok (Traced.emit_result _), decide_eq_true changed]
  rfl

end Passes

end Fresh

end SchemaPack
