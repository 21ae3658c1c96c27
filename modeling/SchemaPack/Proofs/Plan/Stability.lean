import SchemaPack.Proofs.Canonical.Guards
import SchemaPack.Proofs.Compile
import SchemaPack.Proofs.Encoding.RoundTrip
import SchemaPack.Proofs.Json.Entries
import SchemaPack.Proofs.Plan.Decision
import SchemaPack.Proofs.Plan.Exclusion

namespace SchemaPack

/-- A computation that gives a value, applies no rule and falls back on nothing. -/
structure Traced.Quiet {α : Type} (x : Traced α) (a : α) : Prop where
  result : x.result = .ok a
  events : ∀ event ∈ x.events, event.isApplication = false ∧ event ≠ .fellBack

namespace Traced.Quiet

variable {α β : Type}

theorem pure (a : α) : Quiet (pure a : Traced α) a := ⟨rfl, List.forall_mem_nil _⟩

theorem bind {x : Traced α} {f : α → Traced β} {a : α} {b : β} (first : x.Quiet a)
    (later : (f a).Quiet b) : (x >>= f).Quiet b := by
  rw [bind_ok first.result]
  exact ⟨later.result, List.forall_mem_append.mpr ⟨first.events, later.events⟩⟩

theorem emit {event : Event} (plain : event.isApplication = false) (direct : event ≠ .fellBack) :
    (emit event).Quiet () :=
  ⟨rfl, List.forall_mem_singleton.mpr ⟨plain, direct⟩⟩

theorem ofExcept {result : Except Failure α} {a : α} (given : result = .ok a) :
    (ofExcept result).Quiet a :=
  ⟨ofExcept_result_ok.mpr given, List.forall_mem_nil _⟩

theorem applications {x : Traced α} {a : α} (quiet : x.Quiet a) : x.applications = 0 := by
  rw [Traced.applications, List.countP_eq_zero]
  intro event listed
  rw [(quiet.events event listed).1]
  exact Bool.false_ne_true

end Traced.Quiet

namespace Fresh

open Traced (Quiet)

variable {rules : List Rule} {resolver : Resolver} {inherited : String} {context : Context}

theorem settle_quiet {pointer : Pointer} {node : Json}
    (here : Context.of resolver inherited pointer node = .ok context)
    (idle : Rule.Idle rules node context) (steps : Nat) :
    (settle rules resolver inherited pointer (steps + 1) node).Quiet (context, node) := by
  have examined : (Traced.emit (.examined context node none)).Quiet () := .emit rfl nofun
  rw [settle]
  refine (Quiet.ofExcept here).bind ?_
  rw [Rule.first_of_idle idle, pure_bind]
  exact examined.bind (.pure _)

theorem visit_quiet {pointer : Pointer} {node : Json}
    (here : Context.of resolver inherited pointer node = .ok context)
    (idle : Rule.Idle rules node context)
    (none_held : ∀ entry ∈ node.entries, ((Keyword.find? context.vocabularies entry.1).map
      Keyword.role).all (!·.holdsSubschemas) = true) (steps : Nat) :
    (visit rules Keyword.find? resolver (steps + 2) inherited pointer node).Quiet node := by
  rw [visit]
  refine (settle_quiet here idle steps).bind ?_
  cases node with
  | object members =>
    rw [Json.entries_object] at none_held
    dsimp only
    rw [visitKeywords_eq_pure_of_none none_held, pure_bind]
    exact .pure _
  | null | bool | number | string | array => exact .pure _

theorem runPasses_quiet {document : Json} {steps : Nat}
    (visited : (visit rules Keyword.find? resolver steps inherited .root document).Quiet document) :
    (runPasses rules Keyword.find? resolver inherited (steps + 1) 1 0 document).Quiet
      document := by
  have passed : (Traced.emit (.passed 1 false)).Quiet () := .emit rfl nofun
  have settled : (Traced.emit (.settled 1 0)).Quiet () := .emit rfl nofun
  rw [runPasses]
  refine visited.bind ?_
  rw [visited.applications]
  exact passed.bind (settled.bind (.pure _))

end Fresh

theorem saturate_quiet {rules : List Rule} {resolver : Resolver} {default : Option String}
    {encoding : Encoding} {limit : Nat} (enough : 3 ≤ limit)
    (based : Dialect.base (Encoding.resolver resolver) Encoding.metaschemaId =
      .ok Dialect.draft202012)
    (idle : Rule.Idle rules encoding.document (Encoding.context .root)) :
    (saturate rules (Encoding.resolver resolver) default encoding.document limit).Quiet
      encoding.document := by
  obtain ⟨steps, rfl⟩ : ∃ fewer, limit = fewer + 3 := ⟨limit - 3, by omega⟩
  have here := Encoding.context_of_document based Encoding.metaschemaId .root encoding
  have plain : ∀ entry ∈ encoding.document.entries, entry.1 ∈ Keyword.plain :=
    Encoding.plain_of_document rfl
  have visited := Fresh.visit_quiet here idle
    (fun entry listed => Keyword.plain_holds_none _ (plain entry listed)) steps
  rw [saturate_eq, Encoding.ofDocument_dialect, Traced.ofExcept_ok_bind]
  exact Fresh.runPasses_quiet visited

section Stages

variable {resolver : Resolver} {default : Option String} {encoding : Encoding} {limit : Nat}
  (enough : 3 ≤ limit)
  (based : Dialect.base (Encoding.resolver resolver) Encoding.metaschemaId =
    .ok Dialect.draft202012)

include enough based

theorem canonicalize_quiet :
    (canonicalize resolver default encoding.document limit).Quiet encoding.document :=
  saturate_quiet enough based (canonicalRules_idle_document .root encoding)

theorem plan_quiet : (plan resolver default encoding.document limit).Quiet encoding.document := by
  have planned : (saturate planRules (Encoding.resolver resolver) default encoding.document
      limit).Quiet encoding.document :=
    saturate_quiet enough based (.of_safe planRules_safe (planRules_idle_document encoding _))
  rw [plan, Encoding.ofDocument_dialect, Traced.ofExcept_ok_bind, based, Traced.ofExcept_ok_bind,
    if_neg (not_not_intro rfl)]
  refine planned.bind ?_
  rw [Encoding.ofDocument_dialect, Traced.ofExcept_ok_bind, Encoding.isEncoding_document]
  exact .pure _

theorem run_quiet (stage : Stage) :
    (stage.run resolver default encoding.document limit).Quiet encoding.document := by
  cases stage with
  | compile => exact (canonicalize_quiet enough based).bind (plan_quiet enough based)
  | canonicalize => exact canonicalize_quiet enough based
  | plan => exact plan_quiet enough based

end Stages

theorem exists_planning_of_made {resolver : Resolver} {default : Option String}
    {document result : Json} {limit : Nat}
    (foreign : Dialect.ofDocument document default ≠ .ok Encoding.metaschemaId)
    (made : (plan resolver default document limit).result = .ok result ∨
      (compile resolver default document limit).result = .ok result) :
    ∃ schema dialect vocabularies encoding,
      Planning resolver default schema result dialect vocabularies encoding := by
  rcases made with planned | compiled
  · exact ⟨document, exists_planning foreign planned⟩
  · obtain ⟨canonical, first, second⟩ := Traced.bind_result_ok compiled
    rw [← canonicalize_ofDocument first] at foreign
    exact ⟨canonical, exists_planning foreign second⟩

/-- Every plan is loaded as an encoding, and the encoding is written as the same plan, member for
    member. -/
theorem plan_loads (resolver : Resolver) (default : Option String) (document result : Json)
    (limit : Nat) (foreign : Dialect.ofDocument document default ≠ .ok Encoding.metaschemaId)
    (made : (plan resolver default document limit).result = .ok result ∨
      (compile resolver default document limit).result = .ok result) :
    ∃ encoding, Encoding.ofDocument result = .ok encoding ∧ encoding.document = result := by
  obtain ⟨_, _, _, encoding, planning⟩ := exists_planning_of_made foreign made
  rw [planning.written]
  exact ⟨encoding, Encoding.ofDocument_document encoding, rfl⟩

theorem plan_loads_extremes :
    let minimum := Json.number (.integer (-9223372036854775808))
    let document := Json.object [("type", .string "integer"), ("minimum", minimum),
      ("maximum", .number (.integer 9223372036854775807)), ("multipleOf", minimum)]
    let result := Json.object [("$schema", .string Encoding.metaschemaId),
      ("name", .string "BOUNDED_MULTIPLE_8BITS_ENUM_FIXED"),
      ("options", .object [("minimum", minimum),
        ("maximum", .number (.integer 9223372036854775807)),
        ("multiplier", .number (.integer 9223372036854775808))])]
    let default := some Dialect.draft202012
    Dialect.ofDocument document default ≠ .ok Encoding.metaschemaId ∧
      (plan Dialect.official default document 20).result = .ok result ∧
        ∃ encoding, Encoding.ofDocument result = .ok encoding ∧ encoding.document = result := by
  intro minimum document result default
  have foreign : Dialect.ofDocument document default ≠ .ok Encoding.metaschemaId := by
    decide +kernel
  have planned : (plan Dialect.official default document 20).result = .ok result := by
    decide +kernel
  exact ⟨foreign, planned, plan_loads _ default document result 20 foreign (.inl planned)⟩

/-- Plans are finished: whatever they list, canonicalizing, planning or compiling them gives them
    back, with no rule applied and no fallback. -/
theorem plan_stable (resolver : Resolver) (default other : Option String)
    (document result : Json) (limit more : Nat) (enough : 3 ≤ more)
    (foreign : Dialect.ofDocument document default ≠ .ok Encoding.metaschemaId)
    (made : (plan resolver default document limit).result = .ok result ∨
      (compile resolver default document limit).result = .ok result) (stage : Stage) :
    let again := stage.run resolver other result more
    again.result = .ok result ∧ again.applications = 0 ∧
      ∀ event ∈ again.events, event ≠ .fellBack := by
  obtain ⟨_, _, _, encoding, planning⟩ := exists_planning_of_made foreign made
  rw [planning.written]
  have quiet : (stage.run resolver other encoding.document more).Quiet encoding.document :=
    run_quiet enough (Encoding.base_metaschemaId planning.based) stage
  exact ⟨quiet.result, quiet.applications, fun event listed => (quiet.events event listed).2⟩

theorem plan_stable_choices :
    let union := Json.object [("type", .array [.string "string", .string "null"])]
    let choices := [.bool true, union, (Encoding.constNone union).document]
    let document := Json.object [("enum", .array choices)]
    let result := (Encoding.topLevelByteChoiceIndex choices).document
    let default := some Dialect.draft202012
    Dialect.ofDocument document default ≠ .ok Encoding.metaschemaId ∧
      (compile Dialect.official default document 20).result = .ok result ∧
        let again := compile Dialect.official none result 30
        again.result = .ok result ∧ again.applications = 0 ∧
          ∀ event ∈ again.events, event ≠ .fellBack := by
  intro union choices document result default
  have foreign : Dialect.ofDocument document default ≠ .ok Encoding.metaschemaId := by
    decide +kernel
  have compiled : (compile Dialect.official default document 20).result = .ok result := by
    decide +kernel
  exact ⟨foreign, compiled, plan_stable _ default none document result 20 30 (by decide) foreign
    (.inr compiled) .compile⟩

end SchemaPack
