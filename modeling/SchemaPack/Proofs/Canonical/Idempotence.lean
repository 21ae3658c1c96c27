import SchemaPack.Proofs.Canonical.Wrapper
import SchemaPack.Proofs.Rules.FixedPoint
import SchemaPack.Proofs.Rules.Invariant
import SchemaPack.Proofs.Rules.Passes
import SchemaPack.Proofs.Rules.Steps

namespace SchemaPack

theorem canonicalRules_stable_declared (resolver : Resolver) (inherited : String)
    (pointer : Pointer) (declared : Option String) :
    Fresh.Stable canonicalRules resolver inherited pointer
      fun node => Dialect.declared? node = declared where
  apply := by
    intro rule listed node context _ condition holds
    have wrapper : "$schema" ∈ Spelling.wrapperKeywords := by decide
    have kept := canonicalRules_keep_wrapper wrapper rule listed node context condition
    unfold Dialect.declared? at holds ⊢
    rw [kept]
    exact holds
  inside := by
    intro members results context _ alike holds
    exact alike.declared?.trans holds

theorem canonicalize_ofDocument {resolver : Resolver} {default : Option String}
    {document result : Json} {limit : Nat}
    (h : (canonicalize resolver default document limit).result = .ok result) :
    Dialect.ofDocument result default = Dialect.ofDocument document default := by
  have declared : Dialect.declared? result = Dialect.declared? document := by
    cases root : Dialect.ofDocument document default with
    | ok dialect =>
      exact saturate_stable root (canonicalRules_stable_declared _ dialect .root _) h rfl
    | error failure =>
      rw [canonicalize, saturate_eq, root] at h
      cases h
  unfold Dialect.ofDocument
  rw [declared]

/-- Nothing is left to do on a document that an idle visit gave: one pass, no application. -/
theorem Fresh.runPasses_idle {rules : List Rule} {walker : Walker} {resolver : Resolver}
    {dialect : String} {fewer steps : Nat} {document : Json}
    (idle : (visit rules walker resolver fewer dialect .root document).Idle document)
    (less : fewer < steps) :
    let run := runPasses rules walker resolver dialect steps 1 0 document
    run.result = .ok document ∧ run.applications = 0 ∧ run.passes = 1 := by
  obtain ⟨steps, rfl⟩ : ∃ before, steps = before + 1 := ⟨steps - 1, by omega⟩
  have same := (visit_extends (by omega : fewer ≤ steps)).eq_of_ok idle.1
  have quiet : ¬ 0 < (visit rules walker resolver fewer dialect .root document).applications := by
    rw [idle.2]
    omega
  intro run
  have shape : run = visit rules walker resolver fewer dialect .root document >>= fun document =>
      Traced.emit (.passed 1 false) >>= fun _ =>
        Traced.emit (.settled 1 0) >>= fun _ => pure document := by
    simp only [run, runPasses, same, quiet, decide_false, Bool.false_eq_true, if_false]
  refine ⟨?_, ?_, ?_⟩
  · rw [shape, Traced.bind_ok idle.1]
    rfl
  · rw [shape, Traced.bind_applications idle.1, idle.2]
    rfl
  · rw [shape, Traced.bind_passes idle.1, visit_passes]
    rfl

/-- Canonicalization is idempotent: on its own result it applies no rule, makes one pass and gives
    the same document back, members in the same order and numbers in the same spelling. -/
theorem canonicalize_idempotent (resolver : Resolver) (default : Option String)
    (document result : Json) (limit more : Nat) (le : limit ≤ more)
    (h : (canonicalize resolver default document limit).result = .ok result) :
    let again := canonicalize resolver default result more
    again.result = .ok result ∧ again.applications = 0 ∧ again.passes = 1 := by
  have root := canonicalize_ofDocument h
  -- The last pass of the first run was idle on the result, and the second run starts with it.
  rw [canonicalize, saturate_eq] at h
  obtain ⟨dialect, declared, later⟩ := Traced.ofExcept_bind_ok h
  obtain ⟨fewer, less, idle⟩ := Fresh.runPasses_last later
  rw [declared] at root
  rw [canonicalize, saturate_eq, root, Traced.ofExcept_ok_bind]
  exact Fresh.runPasses_idle idle (by omega)

theorem canonicalize_idempotent_empty :
    let document := Json.object [("type", .array [.string "null", .string "string"]),
      ("maxLength", .number (.integer 0))]
    let result := Json.object [("anyOf", .array [.object [("enum", .array [.null])],
      .object [("enum", .array [.string ""])]])]
    let run := canonicalize Dialect.official (some Dialect.draft202012) document 20
    let again := canonicalize Dialect.official (some Dialect.draft202012) result 30
    run.result = .ok result ∧ again.result = .ok result ∧ again.applications = 0 ∧
      again.passes = 1 := by
  intro document result run again
  have given : run.result = .ok result := by decide +kernel
  exact ⟨given, canonicalize_idempotent _ _ document result 20 30 (by decide) given⟩

end SchemaPack
