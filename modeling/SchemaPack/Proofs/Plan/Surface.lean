import SchemaPack.Compile
import SchemaPack.Proofs.Canonical.Idempotence
import SchemaPack.Proofs.Canonical.Parity
import SchemaPack.Proofs.Plan.Decision

namespace SchemaPack

open Json

/-- Tells assertions apart, and of other keywords what shows without looking into them. -/
def Tolerance.surface : Tolerance := across Eq Shaped

theorem Tolerance.surface_branches {name : String} (branching : name ∈ ["allOf", "anyOf"])
    {a b : Option Json} : surface name a b ↔ a.isSome = b.isSome := by
  have facts : ∀ name ∈ ["allOf", "anyOf"], name ∉ Keyword.data ∧ name ∈ Keyword.shown ∧
      name ∉ ["patternProperties", "dependentRequired"] := by decide +kernel
  obtain ⟨plain, shown, whole⟩ := facts name branching
  rw [surface, across_shown plain shown]
  constructor
  · exact isSome_congr
  · intro present
    cases a with
    | none =>
      cases b with
      | none => exact .none
      | some => cases present
    | some v =>
      cases b with
      | none => cases present
      | some w => exact .some fun emptiable => absurd emptiable whole

theorem surface_lenient : Tolerance.surface.Lenient Eq where
  toFair := Tolerance.across_fair resemblance_eq (fun _ _ shaped => shaped (by decide)) fun _ => rfl
  dialect := fun _ _ => (Tolerance.across_data List.mem_cons_self).mp
  branches := fun _ _ _ => (Tolerance.surface_branches (by decide)).mpr rfl
  left := by
    intro name branching items kept b _ tolerated
    rw [Tolerance.surface_branches branching] at tolerated ⊢
    exact tolerated
  right := by
    intro name branching a items kept _ tolerated
    rw [Tolerance.surface_branches branching] at tolerated ⊢
    exact tolerated

namespace Fresh

theorem visitKeyword_isHollow {look : Pointer → Json → Traced Json} {vocabularies : Vocabularies}
    {pointer : Pointer} {name : String} {value result : Json}
    (map : ¬Keyword.roleOf name = .subschema)
    (h : (visitKeyword Keyword.find? look vocabularies pointer name value).result = .ok result) :
    result.isHollow = value.isHollow := by
  rcases visitKeyword_role vocabularies name with none | ⟨role, known, holds, same⟩
  · rw [none] at h
    cases h
    rfl
  cases role with
  | subschema => exact absurd same map
  | subschemaList =>
    unfold visitKeyword at h
    rw [known] at h
    cases value with
    | array items =>
      obtain ⟨_, _, last⟩ := Traced.bind_result_ok h
      cases last
      rfl
    | null | bool | number | string | object =>
      cases h
      rfl
  | subschemaMap =>
    refine (any_congr (visitKeyword_members? known h) ?_).symm
    intro members results visited
    have names := congrArg List.isEmpty (visitMembers_names visited)
    rw [List.isEmpty_map, List.isEmpty_map] at names
    exact names.symm
  | identity | reference | comment | assertion | descriptive => cases holds

theorem visitKeyword_shaped {look : Pointer → Json → Traced Json} {vocabularies : Vocabularies}
    {pointer : Pointer} {name : String} {value result : Json}
    (h : (visitKeyword Keyword.find? look vocabularies pointer name value).result = .ok result) :
    Shaped name result value := by
  intro emptiable
  have map : ∀ name ∈ ["patternProperties", "dependentRequired"],
      ¬Keyword.roleOf name = .subschema := by decide +kernel
  exact visitKeyword_isHollow (map name emptiable) h

theorem visit_surface {resolver : Resolver} {inherited : String} {pointer place : Pointer}
    {steps fewer : Nat} {x y x' y' : Json} (akin : Akin .surface x y)
    (first : (visit canonicalRules Keyword.find? resolver steps inherited pointer x).result =
      .ok x')
    (second : (visit canonicalRules Keyword.find? resolver fewer inherited place y).result =
      .ok y') : Akin .surface x' y' := by
  rcases steps with _ | steps
  · cases first
  rcases fewer with _ | fewer
  · cases second
  refine visit_akin surface_lenient resemblance_eq ?_ akin first second
  intro dialect vocabularies pointer place name v w v' w' shaped one two emptiable
  rw [visitKeyword_shaped one emptiable, visitKeyword_shaped two emptiable]
  exact shaped emptiable

theorem runPasses_related {rules : List Rule} {resolver : Resolver} {dialect : String}
    {R : Json → Json → Prop}
    (visits : ∀ steps fewer x y x' y', R x y →
      (visit rules Keyword.find? resolver steps dialect .root x).result = .ok x' →
      (visit rules Keyword.find? resolver fewer dialect .root y).result = .ok y' → R x' y')
    {steps fewer number others applied more : Nat} {x y x' y' : Json} (related : R x y)
    (first : (runPasses rules Keyword.find? resolver dialect steps number applied x).result =
      .ok x')
    (second : (runPasses rules Keyword.find? resolver dialect fewer others more y).result =
      .ok y') : R x' y' := by
  -- a run that has come to its end waits for the other one
  induction total : steps + fewer using Nat.strong_induction_on
    generalizing steps fewer number others applied more x y with
  | _ total ih =>
    obtain ⟨steps, passed, rfl, here, left⟩ := runPasses_cases first
    obtain ⟨fewer, arrived, rfl, there, right⟩ := runPasses_cases second
    have still := visits _ _ _ _ _ _ related here there
    rcases left with ⟨_, left⟩ | ⟨rfl, rfl, _⟩
    · rcases right with ⟨_, right⟩ | ⟨rfl, rfl, _⟩
      · exact ih (steps + fewer) (by omega) still left right rfl
      · exact ih (steps + (fewer + 1)) (by omega) still left second rfl
    · rcases right with ⟨_, right⟩ | ⟨rfl, rfl, _⟩
      · exact ih (steps + 1 + fewer) (by omega) still first right rfl
      · exact still

end Fresh

theorem canonicalize_surface {resolver : Resolver} {default : Option String} {limit more : Nat}
    {x y x' y' : Json} (akin : Akin .surface x y)
    (first : (canonicalize resolver default x limit).result = .ok x')
    (second : (canonicalize resolver default y more).result = .ok y') : Akin .surface x' y' := by
  have declared : Dialect.ofDocument x default = Dialect.ofDocument y default := by
    rw [Dialect.ofDocument, Dialect.ofDocument, akin.declared? surface_lenient resemblance_eq]
  rw [canonicalize, saturate_eq] at first second
  obtain ⟨dialect, root, run⟩ := Traced.ofExcept_bind_ok first
  rw [← declared, root, Traced.ofExcept_ok_bind] at second
  exact Fresh.runPasses_related (fun _ _ _ _ _ _ => Fresh.visit_surface) akin run second

/-- Plans are the same where nothing else shows at the roots. -/
theorem compile_surface {resolver : Resolver} {default : Option String} {limit more : Nat}
    {x y a b : Json} (akin : Akin .surface x y)
    (foreign : Dialect.ofDocument x default ≠ .ok Encoding.metaschemaId)
    (first : (compile resolver default x limit).result = .ok a)
    (second : (compile resolver default y more).result = .ok b) : a = b := by
  obtain ⟨x', left, planned⟩ := Traced.bind_result_ok first
  obtain ⟨y', right, also⟩ := Traced.bind_result_ok second
  have still := canonicalize_surface akin left right
  have declared : Dialect.ofDocument x' default = Dialect.ofDocument y' default := by
    rw [Dialect.ofDocument, Dialect.ofDocument, still.declared? surface_lenient resemblance_eq]
  rw [← canonicalize_ofDocument left] at foreign
  obtain ⟨dialect, vocabularies, encoding, planning⟩ := exists_planning foreign planned
  obtain ⟨_, _, other, plans⟩ := exists_planning (declared ▸ foreign) also
  cases (planning.root.symm.trans declared).trans plans.root
  cases planning.active.symm.trans plans.active
  have read : ∀ name ∈ Row.keywords, y'.get? name = x'.get? name := by
    have asserted : ∀ name ∈ Row.keywords, name ∈ Keyword.assertions := by decide +kernel
    intro name listed
    exact (eq_of_rel_eq ((still.coincide surface_lenient resemblance_eq).read name
      (asserted name listed))).symm
  rw [planning.written, plans.written, (planning.decided.of_get? read).unique plans.decided]

end SchemaPack
