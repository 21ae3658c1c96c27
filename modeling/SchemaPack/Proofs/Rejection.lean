import SchemaPack.Proofs.Canonical.Guards
import SchemaPack.Proofs.Plan.Stability
import SchemaPack.Proofs.Rules.Uniform

namespace SchemaPack

open Json

/-- A chain of metaschemas that leads to a base declares vocabularies, or has the base as its only
    one. -/
theorem Dialect.exists_followVocabularies {resolver : Resolver} {dialect current base : String}
    {lookups : Nat} (followed : followBase resolver dialect lookups current = .ok base) :
    ∃ vocabularies, followVocabularies resolver dialect lookups current = .ok vocabularies := by
  obtain ⟨_, _, climbs, short, given, ends⟩ := exists_climbs followed
  exact ⟨_, climbs.followVocabularies_eq_ok given ends short⟩

/-- A computation whose failures are those of following the metaschemas of some dialect. -/
def Traced.sourced (resolver : Resolver) : Traced.Uniform resolver where
  holds x _ := ∀ failure, x.result = .error (.failed failure) →
    ∃ dialect, Frame.of resolver dialect = .error failure
  pure _ := nofun
  bind := by
    intro _ _ x _ f _ first later failure failed
    rcases Traced.bind_result_error failed with here | ⟨a, _, there⟩
    · exact first failure here
    · exact later a failure there
  short _ := nofun
  crash := nofun
  context inherited pointer node := by
    intro failure failed
    cases frame : Frame.of resolver (Dialect.ofNode inherited node) with
    | ok =>
      rw [Context.of, frame] at failed
      cases failed
    | error =>
      rw [Context.of, frame] at failed
      cases failed
      exact ⟨_, frame⟩
  examined _ _ _ := nofun

theorem Fresh.runPasses_failed {rules : List Rule} {walker : Walker} {resolver : Resolver}
    {dialect : String} {steps number applied : Nat} {document : Json} {failure : Failure}
    (failed : (runPasses rules walker resolver dialect steps number applied document).result =
      .error (.failed failure)) : ∃ other, Frame.of resolver other = .error failure := by
  induction steps generalizing number applied document with
  | zero => cases failed
  | succ steps ih =>
    rcases Traced.bind_result_error failed with here | ⟨_, _, later⟩
    · exact visit_uniform (Traced.sourced resolver) (Nat.le_refl steps) failure here
    · rw [Traced.bind_ok (Traced.emit_result _)] at later
      split at later
      · exact ih later
      · cases later

/-- Vocabularies of which none has subschemas or canonical rules. -/
def Vocabularies.Foreign (vocabularies : Vocabularies) : Prop :=
  ∀ vocabulary ∈ Vocabulary.core :: Vocabulary.ruling, vocabulary ∉ vocabularies

instance (vocabularies : Vocabularies) : Decidable vocabularies.Foreign :=
  inferInstanceAs (Decidable (∀ _ ∈ _, _))

namespace Vocabularies.Foreign

variable {vocabularies : Vocabularies} (foreign : vocabularies.Foreign)

include foreign

theorem holds_none (name : String) :
    ((Keyword.find? vocabularies name).map Keyword.role).all (!·.holdsSubschemas) = true := by
  have table : ∀ keyword ∈ Keyword.all, keyword.role.holdsSubschemas = true →
      keyword.vocabulary ∈ Vocabulary.core :: Vocabulary.ruling := by decide
  cases found : Keyword.find? vocabularies name with
  | none => rfl
  | some keyword =>
    have active := List.find?_some found
    simp only [Bool.and_eq_true, List.contains_iff_mem] at active
    cases holds : keyword.role.holdsSubschemas with
    | false => simp [holds]
    | true =>
      have known := table keyword (List.mem_of_find?_eq_some found) holds
      exact absurd active.2 (foreign _ known)

theorem idle {context : Context} (here : context.vocabularies = vocabularies) (node : Json) :
    Rule.Idle canonicalRules node context := by
  have inactive : ∀ vocabulary ∈ Vocabulary.core :: Vocabulary.ruling,
      context.has vocabulary = false := by
    intro vocabulary listed
    rw [Context.has, here, ← Bool.not_eq_true, List.contains_iff_mem]
    exact foreign vocabulary listed
  rw [List.forall_mem_cons] at inactive
  exact canonicalRules_idle_without_core inactive.2 inactive.1 node

end Vocabularies.Foreign

section Unsupported

variable {resolver : Resolver} {default : Option String} {document : Json}
  {dialect base : String} {limit : Nat}
  (root : Dialect.ofDocument document default = .ok dialect)
  (based : Dialect.base (Encoding.resolver resolver) dialect = .ok base)

include root based

theorem canonicalize_quiet_of_foreign {vocabularies : Vocabularies}
    (active : Dialect.vocabularies (Encoding.resolver resolver) dialect = .ok vocabularies)
    (foreign : vocabularies.Foreign) (enough : 3 ≤ limit) :
    (canonicalize resolver default document limit).Quiet document := by
  obtain ⟨steps, rfl⟩ : ∃ fewer, limit = fewer + 3 := ⟨limit - 3, by omega⟩
  have own : dialect = Dialect.ofNode dialect document :=
    (Dialect.ofNode_of_ofDocument root rfl).symm
  have here : Context.of (Encoding.resolver resolver) dialect .root document =
      .ok ⟨dialect, base, vocabularies, .root⟩ :=
    Context.of_eq_ok_iff.mpr ⟨based, active, own, rfl⟩
  have visited := Fresh.visit_quiet here (foreign.idle rfl document)
    (fun entry _ => foreign.holds_none entry.1) steps
  rw [canonicalize, saturate_eq, root, Traced.ofExcept_ok_bind]
  exact Fresh.runPasses_quiet visited

theorem plan_unsupported (unsupported : base ≠ Dialect.draft202012) :
    plan resolver default document limit = .stop (.failed (.unsupportedDialect base)) := by
  rw [plan, root, Traced.ofExcept_ok_bind, based, Traced.ofExcept_ok_bind, if_pos unsupported]

end Unsupported

/-- A document whose base dialect is not supported is never compiled. It is canonicalized first,
    which can fail as the metaschemas of some dialect do, and refused before any planning. In a
    dialect that shares no vocabulary with the rules it is refused before any rule is applied. -/
theorem compile_unsupported (resolver : Resolver) (default : Option String) (document : Json)
    (dialect base : String) (limit : Nat)
    (root : Dialect.ofDocument document default = .ok dialect)
    (based : Dialect.base (Encoding.resolver resolver) dialect = .ok base)
    (unsupported : base ≠ Dialect.draft202012) :
    let first := canonicalize resolver default document limit
    let run := compile resolver default document limit
    run.events = first.events ∧
      (∀ canonical, first.result = .ok canonical →
        run.result = .error (.failed (.unsupportedDialect base))) ∧
      (∀ stop, first.result = .error stop → run.result = .error stop) ∧
      (∀ failure, first.result = .error (.failed failure) →
        ∃ other, Frame.of (Encoding.resolver resolver) other = .error failure) ∧
      ∃ vocabularies,
        Dialect.vocabularies (Encoding.resolver resolver) dialect = .ok vocabularies ∧
          (vocabularies.Foreign → 3 ≤ limit →
            run.result = .error (.failed (.unsupportedDialect base)) ∧ run.applications = 0) := by
  intro first run
  have refused : ∀ canonical, first.result = .ok canonical →
      run = ⟨first.events, .error (.failed (.unsupportedDialect base))⟩ := by
    intro canonical given
    have rooted := (canonicalize_ofDocument given).trans root
    have planned := @plan_unsupported resolver default canonical dialect base limit rooted based
      unsupported
    exact (Traced.bind_ok given _).trans (by rw [planned, Traced.stop, List.append_nil])
  have stopped : ∀ stop, first.result = .error stop → run = ⟨first.events, .error stop⟩ :=
    fun _ given => Traced.bind_error given _
  obtain ⟨vocabularies, active⟩ := Dialect.exists_followVocabularies based
  refine ⟨?_, ?_, ?_, ?_, vocabularies, active, ?_⟩
  · cases given : first.result with
    | ok canonical => rw [refused canonical given]
    | error stop => rw [stopped stop given]
  · intro canonical given
    rw [refused canonical given]
  · intro stop given
    rw [stopped stop given]
  · intro failure given
    simp only [first, canonicalize, saturate_eq, root, Traced.ofExcept_ok_bind] at given
    exact Fresh.runPasses_failed given
  · intro foreign enough
    have quiet : first.Quiet document :=
      canonicalize_quiet_of_foreign root based active foreign enough
    rw [refused document quiet.result]
    exact ⟨rfl, quiet.applications⟩

theorem compile_unsupported_draft07 :
    let document := Json.object [("$schema", .string (Dialect.draft07 ++ "#")),
      ("type", .array [.string "object"])]
    let run := compile Dialect.official none document 10000
    Dialect.ofDocument document none = .ok Dialect.draft07 ∧
      run.result = .error (.failed (.unsupportedDialect Dialect.draft07)) ∧
        run.applications = 0 := by
  intro document run
  have root : Dialect.ofDocument document none = .ok Dialect.draft07 := by decide +kernel
  have based : Dialect.base (Encoding.resolver Dialect.official) Dialect.draft07 =
      .ok Dialect.draft07 := by decide +kernel
  obtain ⟨_, _, _, _, vocabularies, active, refused⟩ :=
    compile_unsupported Dialect.official none document _ _ 10000 root based (by decide +kernel)
  have only : Dialect.vocabularies (Encoding.resolver Dialect.official) Dialect.draft07 =
      .ok [Dialect.draft07] := by decide +kernel
  have foreign : Vocabularies.Foreign [Dialect.draft07] := by decide +kernel
  cases active.symm.trans only
  exact ⟨root, refused foreign (by decide)⟩

/-- A dialect on another base can have the vocabularies that rules work on: rules are applied, and
    a dialect that is met on the way fails first. -/
theorem compile_rewrites_unsupported :
    let legacy := Json.object [("$id", .string "urn:legacy"),
      ("$schema", .string (Dialect.draft07 ++ "#")),
      ("$vocabulary", .object [(Vocabulary.core, .bool true), (Vocabulary.applicator, .bool true),
        (Vocabulary.validation, .bool true)])]
    let resolver := (Registry.mk [("urn:legacy", legacy)]).resolver
    let document := Json.object [("$schema", .string "urn:legacy"),
      ("type", .array [.string "object"]),
      ("properties", .object [("a", .object [("$schema", .string "urn:unknown")])])]
    let run := compile resolver none document 10000
    Dialect.ofDocument document none = .ok "urn:legacy" ∧
      Dialect.base (Encoding.resolver resolver) "urn:legacy" = .ok Dialect.draft07 ∧
        Dialect.draft07 ≠ Dialect.draft202012 ∧
          run.result = .error (.failed (.unresolvedMetaschema "urn:unknown")) ∧
            0 < run.applications := by
  decide +kernel

end SchemaPack
