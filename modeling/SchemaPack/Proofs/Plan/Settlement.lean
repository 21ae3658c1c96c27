import SchemaPack.Proofs.Plan.Exclusion
import SchemaPack.Proofs.Plan.Footprint
import SchemaPack.Proofs.Rules.Echo
import SchemaPack.Proofs.Rules.Order

namespace SchemaPack

theorem planRules_idle_of_dialect {context : Context} {inherited : String} {encoding : Encoding}
    (dialect : context.dialect = Dialect.ofNode inherited encoding.document) :
    Rule.Idle planRules encoding.document context := by
  refine .of_safe planRules_safe fun rule listed => ?_
  by_contra matched
  rw [Bool.not_eq_false] at matched
  have plannable := (planRules_plan rule listed _ _ matched).1
  rw [not_isPlannable_document dialect] at plannable
  cases plannable

theorem Alike.matches_plain {vocabularies : Vocabularies} {members results : Members}
    (alike : Alike vocabularies members results) :
    ∀ name ∈ Keyword.plain, Json.Matches Eq (.object results) (.object members) name := by
  intro name plain
  rw [Json.Matches, Json.get?_object, Json.get?_object, alike.get? plain]
  exact rel_refl fun _ _ => rfl

namespace Fresh

variable {resolver : Resolver}

theorem mem_settle_examined {rules : List Rule} {inherited : String} {pointer : Pointer}
    {steps : Nat} {node settled : Json} {context : Context}
    (h : (settle rules resolver inherited pointer steps node).result = .ok (context, settled)) :
    pointer ∈ (settle rules resolver inherited pointer steps node).examined := by
  cases steps with
  | zero => cases h
  | succ steps =>
    rw [settle] at h ⊢
    obtain ⟨found, here, h⟩ := Traced.bind_result_ok h
    obtain ⟨_, first, _⟩ := Traced.bind_result_ok h
    obtain ⟨_, _, _, place⟩ := Context.of_eq_ok_iff.mp (Traced.ofExcept_result_ok.mp here)
    rw [Traced.bind_examined here, Traced.bind_examined first,
      Traced.bind_examined (Traced.emit_result _)]
    simp [Traced.examined, Event.place?, place]

/-- A node that no rule matches is looked at and left as it is. -/
theorem settle_unmatched_eq {rules : List Rule} {inherited : String} {pointer : Pointer}
    {node : Json} {context : Context}
    (here : Context.of resolver inherited pointer node = .ok context)
    (idle : Rule.Idle rules node context) (steps : Nat) :
    settle rules resolver inherited pointer (steps + 1) node =
      ⟨[.examined context node none], .ok (context, node)⟩ := by
  rw [settle, here, Traced.ofExcept_ok_bind, Rule.first_of_idle idle, pure_bind,
    Traced.bind_ok (Traced.emit_result _)]
  rfl

theorem settle_encoding (resolver : Resolver) (inherited : String) (pointer : Pointer) (steps : Nat)
    (encoding : Encoding) :
    (settle planRules resolver inherited pointer steps encoding.document).rewritten = [] ∧
      ∀ context settled,
        (settle planRules resolver inherited pointer steps encoding.document).result =
          .ok (context, settled) → settled = encoding.document := by
  rcases steps with _ | steps
  · refine ⟨rfl, ?_⟩
    rintro _ _ ⟨⟩
  cases here : Context.of resolver inherited pointer encoding.document with
  | error failure =>
    rw [settle, here]
    refine ⟨rfl, ?_⟩
    rintro _ _ ⟨⟩
  | ok context =>
    have idle := planRules_idle_of_dialect (Context.of_dialect here)
    rw [settle_unmatched_eq here idle]
    refine ⟨rfl, ?_⟩
    rintro _ _ same
    cases same
    rfl

theorem settle_once (resolver : Resolver) (inherited : String) (pointer : Pointer) (steps : Nat)
    (node : Json) :
    let settling := settle planRules resolver inherited pointer steps node
    (settling.rewritten = [] ∧ ∀ context settled,
      settling.result = .ok (context, settled) → settled = node) ∨
        settling.rewritten = [pointer] ∧ ∀ context settled,
          settling.result = .ok (context, settled) →
            ∃ encoding : Encoding, settled = encoding.document := by
  dsimp only
  rcases steps with _ | steps
  · refine .inl ⟨rfl, ?_⟩
    rintro _ _ ⟨⟩
  cases here : Context.of resolver inherited pointer node with
  | error failure =>
    rw [settle, here]
    refine .inl ⟨rfl, ?_⟩
    rintro _ _ ⟨⟩
  | ok found =>
    have place := (Context.of_eq_ok_iff.mp here).2.2.2
    cases matched : planRules.find? (·.condition node found) with
    | none =>
      have idle : Rule.Idle planRules node found :=
        .of_safe planRules_safe (by simpa using List.find?_eq_none.mp matched)
      rw [settle_unmatched_eq here idle]
      refine .inl ⟨rfl, ?_⟩
      rintro _ _ same
      cases same
      rfl
    | some rule =>
      have condition := List.find?_some matched
      obtain ⟨_, encoding, transformed, _⟩ :=
        planRules_plan rule (List.mem_of_find?_eq_some matched) node found condition
      obtain ⟨none_left, same⟩ := settle_encoding resolver inherited pointer steps encoding
      rw [settle, here, Traced.ofExcept_ok_bind, planRules_first, pure_bind, matched]
      dsimp only
      rw [transformed]
      refine .inr ⟨?_, ?_⟩
      · rw [Traced.bind_rewritten (Traced.emit_result _), none_left]
        simp [Traced.rewritten, Event.rewritten?, place]
      · intro context settled given
        rw [Traced.bind_ok (Traced.emit_result _)] at given
        exact ⟨encoding, same context settled given⟩

/-- Planning a tree touches each place once and goes into nothing that it has replaced. -/
theorem visit_tidy {steps : Nat} {inherited : String} {pointer : Pointer} {node : Json}
    (distinct : node.Distinct) :
    (visit planRules Keyword.find? resolver steps inherited pointer node).Tidy pointer.Covers := by
  induction steps generalizing inherited pointer node with
  | zero => exact .of_nil rfl
  | succ steps ih =>
    have here := settle_examined planRules resolver inherited pointer steps node
    have cases_of := settle_once resolver inherited pointer steps node
    rw [visit]
    generalize settle planRules resolver inherited pointer steps node = settling at here cases_of ⊢
    have alone : settling.Tidy (· = pointer) := by
      refine ⟨here, ?_, ?_⟩
      · rcases cases_of with ⟨changes, _⟩ | ⟨changes, _⟩ <;> simp [changes]
      · intro outer applied inner listed _
        rw [here inner listed, here outer (Traced.mem_examined_of_rewritten applied)]
    rcases cases_of with ⟨changes, kept⟩ | ⟨_, replaced⟩
    · -- Nothing happens to the node itself, and the rest lies below it.
      let below : Pointer → Prop := fun place => ∃ name, (pointer.child name).Covers place
      have reached : ∀ place, place = pointer ∨ below place → pointer.Covers place := by
        rintro place (rfl | ⟨name, lower⟩)
        · exact .refl _
        · exact lower.of_child
      refine (alone.bind ?_ ?_ ?_).mono reached
      · rintro ⟨context, settled⟩ given
        rw [kept context settled given]
        cases node with
        | object members =>
          have inside := fun pointer node => @ih context.dialect pointer node
          have children := visitKeywords_tidy inside Keyword.find? context.vocabularies pointer
            members distinct.1 distinct.2
          exact (children.mono fun _ under => under.imp fun _ => And.right).bind_pure
        | null | bool | number | string | array => exact .pure _
      · simp [changes]
      · rintro outer ⟨name, lower⟩ inner listed covers
        rw [here inner listed] at covers
        exact pointer.not_child_covers name (lower.trans covers)
    · -- An encoding holds no subschemas.
      have reached : ∀ place, place = pointer ∨ False → pointer.Covers place := by
        rintro place (rfl | impossible)
        · exact .refl _
        · exact impossible.elim
      refine (alone.bind ?_ ?_ ?_).mono reached
      · rintro ⟨context, settled⟩ given
        obtain ⟨encoding, rfl⟩ := replaced context settled given
        obtain ⟨members, same⟩ : ∃ members, Json.object members = encoding.document := ⟨_, rfl⟩
        rw [← same]
        dsimp only
        rw [visitKeywords_eq_pure (Encoding.plain_of_document same), pure_bind]
        exact .pure _
      · exact fun _ _ _ => False.elim
      · exact fun _ => False.elim

theorem settle_echoes {rules : List Rule} {steps : Nat} {inherited : String}
    {pointer : Pointer} {node settled result : Json} {context : Context}
    (first : (settle rules resolver inherited pointer steps node).result = .ok (context, settled))
    (here : Context.of resolver inherited pointer result = .ok context)
    (idle : Rule.Idle rules result context) (fewer : Nat) :
    (settle rules resolver inherited pointer steps node).Echoes
        (settle rules resolver inherited pointer fewer result) ∧
      ∀ found, (settle rules resolver inherited pointer fewer result).result = .ok found →
        found = (context, result) := by
  rcases fewer with _ | fewer
  · exact ⟨.of_nil rfl, nofun⟩
  have place := (Context.of_eq_ok_iff.mp here).2.2.2
  have looked := mem_settle_examined first
  rw [settle_unmatched_eq here idle]
  refine ⟨⟨rfl, ?_⟩, fun _ same => (Except.ok.inj same).symm⟩
  simpa [Traced.examined, Event.place?, place] using looked

/-- A second visit finds nothing to do, and no place that the first did not find. -/
theorem visit_echoes {steps : Nat} {inherited : String} {pointer : Pointer} {node result : Json}
    (h : (visit planRules Keyword.find? resolver steps inherited pointer node).result =
      .ok result) (fewer : Nat) :
    (visit planRules Keyword.find? resolver steps inherited pointer node).Echoes
      (visit planRules Keyword.find? resolver fewer inherited pointer result) := by
  induction steps generalizing fewer inherited pointer node result with
  | zero => cases h
  | succ steps ih =>
    rcases fewer with _ | fewer
    · exact .of_nil rfl
    rw [visit] at h ⊢
    obtain ⟨⟨context, settled⟩, first, later⟩ := Traced.bind_result_ok h
    obtain ⟨here, idle⟩ := settle_unmatched first
    rw [visit]
    cases settled with
    | object members =>
      obtain ⟨results, second, last⟩ := Traced.bind_result_ok later
      cases last
      have alike := visitKeywords_alike second
      have again := Context.of_alike here alike
      have still : Rule.Idle planRules (.object results) context := by
        refine .of_safe planRules_safe fun rule listed => ?_
        rw [planRules_congr alike.matches_plain context Json.resemblance_eq rule listed,
          idle.unmatched rule listed]
      obtain ⟨echoes, same⟩ := settle_echoes first again still fewer
      apply Traced.Echoes.bind first echoes
      intro found given
      rw [same found given]
      have inside := fun pointer node result given =>
        @ih context.dialect pointer node result given fewer
      have children := visitKeywords_echoes inside second
      apply Traced.Echoes.bind second children
      exact fun _ _ => .pure _ _
    | null | bool | number | string | array =>
      cases later
      obtain ⟨echoes, same⟩ := settle_echoes first here idle fewer
      apply Traced.Echoes.bind first echoes
      intro found given
      rw [same found given]
      exact .pure _ _

/-- The second pass of planning is the last one, and nothing but an echo of the first. -/
theorem runPasses_settles {dialect : String} {steps number applied : Nat}
    {document result : Json} (distinct : document.Distinct)
    (h : (runPasses planRules Keyword.find? resolver dialect steps number applied document).result =
      .ok result) :
    let run := runPasses planRules Keyword.find? resolver dialect steps number applied document
    run.passes ≤ 2 ∧ run.Tidy Pointer.root.Covers := by
  have none_inside : ∀ steps node,
      (visit planRules Keyword.find? resolver steps dialect .root node).events.countP
        (·.isPass) = 0 :=
    fun steps node => visit_passes steps dialect .root node
  rcases steps with _ | steps
  · cases h
  obtain ⟨passed, first, _⟩ := Traced.bind_result_ok h
  have tidy : (visit planRules Keyword.find? resolver steps dialect .root document).Tidy
      Pointer.root.Covers := visit_tidy distinct
  by_cases changed :
    0 < (visit planRules Keyword.find? resolver steps dialect .root document).applications
  · rw [runPasses_of_changed first changed] at h ⊢
    rcases steps with _ | fewer
    · cases h
    obtain ⟨again, second, _⟩ := Traced.bind_result_ok h
    have echoes := visit_echoes first fewer
    rw [runPasses_of_unchanged ⟨second, echoes.applications⟩]
    have none : (visit planRules Keyword.find? resolver fewer dialect .root passed).events.filterMap
        Event.rewritten? = [] := echoes.rewritten
    refine ⟨?_, tidy.of_examined ?_ ?_⟩
    · simp only [Traced.passes, List.countP_append, List.countP_cons, List.countP_nil, none_inside]
      simp [Event.isPass]
    · simp only [Traced.rewritten, List.filterMap_append, List.filterMap_cons, none,
        Event.rewritten?, List.filterMap_nil, List.append_nil]
    · intro place listed
      simp only [Traced.examined, List.filterMap_append, List.filterMap_cons, Event.place?,
        List.filterMap_nil, List.append_nil, List.mem_append] at listed
      exact listed.elim id (echoes.examined place)
  · rw [runPasses_of_unchanged ⟨first, by omega⟩]
    refine ⟨?_, tidy.of_examined ?_ ?_⟩
    · simp only [Traced.passes, List.countP_append, List.countP_cons, List.countP_nil, none_inside]
      simp [Event.isPass]
    · simp [Traced.rewritten, Event.rewritten?]
    · simp [Traced.examined, Event.place?]

end Fresh

/-- Planning rules exclude each other, so that their order does not matter, and settle at once: in
    two passes at most, each place is rewritten once at most and nothing below it is looked at. -/
theorem planRules_settle (resolver : Resolver) :
    (∀ node context, (planRules.filter (·.condition node context)).length ≤ 1) ∧
      (∀ rules : List Rule, rules.Perm planRules → ∀ default document limit,
        saturate rules resolver default document limit =
          saturate planRules resolver default document limit) ∧
        ∀ default document limit result, document.Distinct →
          let run := saturate planRules resolver default document limit
          run.result = .ok result → run.passes ≤ 2 ∧ run.rewritten.Nodup ∧
            ∀ outer ∈ run.rewritten, ∀ inner ∈ run.examined,
              outer.Covers inner → inner = outer := by
  have unique := fun node context => length_filter_le_one planRules_exclude node context
  refine ⟨unique, ?_, ?_⟩
  · intro rules perm default document limit
    apply saturate_congr
    intro node context
    have safe : ∀ rule ∈ rules, rule.Safe := fun rule listed =>
      planRules_safe rule (perm.mem_iff.mp listed)
    rw [Rule.first_eq_find? fun rule listed => safe rule listed node context, planRules_first,
      find?_eq_of_perm perm (unique node context)]
  · intro default document limit result distinct run given
    have rest : ∃ dialect, run = Fresh.runPasses planRules Keyword.find? resolver dialect limit 1 0
        document := by
      simp only [run, saturate_eq] at given ⊢
      obtain ⟨dialect, root, _⟩ := Traced.ofExcept_bind_ok given
      exact ⟨dialect, by rw [root, Traced.ofExcept_ok_bind]⟩
    obtain ⟨dialect, same⟩ := rest
    rw [same] at given ⊢
    obtain ⟨passes, tidy⟩ := Fresh.runPasses_settles distinct given
    exact ⟨passes, tidy.once, tidy.closed⟩

theorem planRules_settle_nested :
    let resolver := Encoding.resolver Dialect.official
    let default := some Dialect.draft202012
    let listing := Json.object [("enum", .array [.object [("not", .object [("enum", .array [])])]])]
    let document := Json.object [("not", listing), ("anyOf", .array [listing, .bool true])]
    let encoding := (Encoding.constNone (.object [("not", .object [("enum", .array [])])])).document
    let result := Json.object [("not", encoding), ("anyOf", .array [encoding, .bool true])]
    let run := saturate planRules resolver default document 20
    planRules.reverse.Perm planRules ∧ document.Distinct ∧ run.result = .ok result ∧
      saturate planRules.reverse resolver default document 20 = run ∧ run.passes ≤ 2 ∧
        run.rewritten.Nodup ∧ ∀ outer ∈ run.rewritten, ∀ inner ∈ run.examined,
          outer.Covers inner → inner = outer := by
  intro resolver default listing document encoding result run
  have reversed : planRules.reverse.Perm planRules := List.reverse_perm _
  have distinct : document.Distinct := by decide +kernel
  have given : run.result = .ok result := by decide +kernel
  obtain ⟨_, ordered, settled⟩ := planRules_settle resolver
  exact ⟨reversed, distinct, given, ordered _ reversed default document 20,
    settled default document 20 result distinct given⟩

end SchemaPack
