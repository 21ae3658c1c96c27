import SchemaPack.Proofs.Annotations
import SchemaPack.Proofs.Canonical.Listing
import SchemaPack.Proofs.Plan.Stability
import SchemaPack.Proofs.Plan.Totality

namespace SchemaPack

open Json

/-- What is left of some values when duplicates are dropped. -/
structure Chosen (values choices : List Json) : Prop where
  drawn : ∀ choice ∈ choices, choice ∈ values
  fresh : hasDuplicates choices = some false
  some_left : values ≠ [] → choices ≠ []

theorem Chosen.of_fresh {values : List Json} (fresh : hasDuplicates values = some false) :
    Chosen values values :=
  ⟨fun _ => id, fresh, id⟩

theorem Chosen.of_sortUnique {values kept choices : List Json}
    (ran : sortUnique values = some kept) (chosen : Chosen kept choices) :
    Chosen values choices := by
  refine ⟨?_, chosen.fresh, ?_⟩
  · exact fun choice listed => mem_of_mem_sortUnique ran (chosen.drawn choice listed)
  · intro some_values
    obtain ⟨value, listed⟩ := List.exists_mem_of_ne_nil values some_values
    obtain ⟨other, left, _⟩ := exists_mem_sortUnique ran listed
    exact chosen.some_left (List.ne_nil_of_mem left)

section Runs

variable (value : Json) {values kept choices : List Json}

theorem first_constant (place : Pointer) :
    Rule.first (object [("const", value)]) (Context.official place) canonicalRules =
      pure (some Spelling.constAsEnum) := by
  apply Rule.first_of_only
  · simp only [canonicalRules, Spelling.rules, List.mem_append, List.mem_cons, true_or, or_true]
  · have active : (Context.official place).has Vocabulary.validation = true := rfl
    simp [Spelling.constAsEnum, active, Json.contains_eq, get?_single]
  · rfl
  · intro rule listed other
    by_cases repeated : rule = Collapse.duplicateEnum
    · subst repeated
      simp [Collapse.duplicateEnum, Collapse.duplicates, Json.arrayAt?, get?_single]
    · exact ⟨canonicalRules_idle_single (by decide) value _ listed other repeated,
        canonicalRules_uncrashed_single (by decide) value _ listed repeated⟩

theorem enumOfConst_constant :
    Spelling.constAsEnum.transform (object [("const", value)]) = listing [value] := by
  simp [Spelling.constAsEnum, Spelling.enumOfConst, listing, get?_single, Json.erase,
    Members.erase, Json.insert, Members.insert, Members.contains]

/-- Schemas that are settled, whatever their values look like, as a list of the values left. -/
def Settles (document : Json) (choices : List Json) : Prop :=
  ∃ bound, ∀ steps, bound ≤ steps →
    (Fresh.settle canonicalRules (Encoding.resolver Dialect.official) Dialect.draft202012 .root
      steps document).result = .ok (Context.official .root, listing choices)

theorem Settles.of_fresh (fresh : hasDuplicates values = some false) :
    Settles (listing values) values := by
  refine ⟨1, fun steps enough => ?_⟩
  obtain ⟨steps, rfl⟩ : ∃ fewer, steps = fewer + 1 := ⟨steps - 1, by omega⟩
  rw [Fresh.settle_unmatched_eq (Context.of_official .root rfl) (idle_of_fresh .root fresh)]

theorem Settles.of_applied {document : Json} {rule : Rule}
    (undeclared : Dialect.declared? document = none)
    (first : Rule.first document (Context.official .root) canonicalRules = pure (some rule))
    (settles : Settles (rule.transform document) choices) : Settles document choices := by
  obtain ⟨bound, settled⟩ := settles
  refine ⟨bound + 1, fun steps enough => ?_⟩
  obtain ⟨steps, rfl⟩ : ∃ fewer, steps = fewer + 1 := ⟨steps - 1, by omega⟩
  rw [Fresh.settle, Context.of_official .root undeclared, Traced.ofExcept_ok_bind, first, pure_bind,
    Traced.bind_ok (Traced.emit_result _)]
  exact settled steps (by omega)

theorem Settles.of_repeated (repeated : hasDuplicates values = some true)
    (ran : sortUnique values = some kept) (settles : Settles (listing kept) choices) :
    Settles (listing values) choices := by
  refine .of_applied rfl (first_of_repeated .root repeated ran) ?_
  rwa [duplicateEnum_transform ran]

theorem settles_constant : Settles (object [("const", value)]) [value] := by
  refine .of_applied rfl (first_constant value .root) ?_
  rw [enumOfConst_constant]
  exact .of_fresh rfl

theorem orderable_of_sortUnique (orderable : Orderable values)
    (ran : sortUnique values = some kept) (shorter : kept.length < values.length) :
    Orderable kept := by
  have inside := fun value => @mem_of_mem_sortUnique values kept ran value
  refine orderable.imp (fun few => by omega) fun transitive a first b second c third => ?_
  exact transitive a (inside a first) b (inside b second) c (inside c third)

/-- Duplicates are dropped until none are left, and each time values are. -/
theorem exists_settles (orderable : Orderable values) :
    ∃ choices, Chosen values choices ∧ Settles (listing values) choices := by
  induction size : values.length using Nat.strongRecOn generalizing values with
  | ind size ih =>
    have found := hasDuplicates_eq orderable
    have ran := sortUnique_eq orderable
    cases repeated : repeats (inserted values) with
    | false =>
      rw [repeated] at found
      exact ⟨values, .of_fresh found, .of_fresh found⟩
    | true =>
      rw [repeated] at found
      have shorter := sortUnique_length_lt orderable found ran
      obtain ⟨choices, chosen, settles⟩ := ih _ (size ▸ shorter)
        (orderable_of_sortUnique orderable ran shorter) rfl
      exact ⟨choices, .of_sortUnique ran chosen, .of_repeated found ran settles⟩

theorem exists_settles_of_settled {steps : Nat} {context : Context} {settled : Json}
    (h : (Fresh.settle canonicalRules (Encoding.resolver Dialect.official) Dialect.draft202012 .root
      steps (listing values)).result = .ok (context, settled)) :
    ∃ choices, Chosen values choices ∧ Settles (listing values) choices := by
  induction steps generalizing values with
  | zero => cases h
  | succ steps ih =>
    obtain ⟨found, here, next⟩ := Fresh.settle_succ h
    cases (Context.of_official .root rfl).symm.trans here
    rcases next with ⟨idle, _, _⟩ | ⟨rule, matched, later⟩
    · have fresh := fresh_of_idle .root idle
      exact ⟨values, .of_fresh fresh, .of_fresh fresh⟩
    · have listed := List.mem_of_find?_eq_some matched
      have applies := List.find?_some matched
      have duplicates : rule = Collapse.duplicateEnum := by
        by_contra other
        rw [(canonicalRules_idle_listing .root listed other).1] at applies
        cases applies
      subst duplicates
      rw [duplicateEnum_listing, beq_iff_eq] at applies
      cases ran : sortUnique values with
      | none =>
        have same : Collapse.duplicateEnum.transform (listing values) = listing values := by
          simp [Collapse.duplicateEnum, Collapse.duplicates, arrayAt?_listing, ran]
        rw [same] at later
        exact ih later
      | some kept =>
        rw [duplicateEnum_transform ran] at later
        obtain ⟨choices, chosen, settles⟩ := ih later
        exact ⟨choices, .of_sortUnique ran chosen, .of_repeated applies ran settles⟩

theorem Settles.visit {document : Json} (settles : Settles document choices) :
    ∃ bound, ∀ steps, bound ≤ steps →
      (Fresh.visit canonicalRules Keyword.find? (Encoding.resolver Dialect.official) steps
        Dialect.draft202012 .root document).result = .ok (listing choices) := by
  obtain ⟨bound, settled⟩ := settles
  refine ⟨bound + 1, fun steps enough => ?_⟩
  obtain ⟨steps, rfl⟩ : ∃ fewer, steps = fewer + 1 := ⟨steps - 1, by omega⟩
  have plain : ∀ entry ∈ [("enum", array choices)], entry.1 ∈ Keyword.plain := by
    simp [Keyword.plain]
  rw [Fresh.visit, Traced.bind_ok (settled steps (by omega))]
  dsimp only [listing]
  rw [Fresh.visitKeywords_eq_pure plain]
  rfl

theorem Settles.canonicalize {document : Json} (settles : Settles document choices)
    (undeclared : Dialect.declared? document = none) (fresh : hasDuplicates choices = some false) :
    ∃ limit, (SchemaPack.canonicalize Dialect.official (some Dialect.draft202012) document
      limit).result = .ok (listing choices) := by
  obtain ⟨bound, visited⟩ := settles.visit
  have root : Dialect.ofDocument document (some Dialect.draft202012) =
      .ok Dialect.draft202012 := by
    rw [Dialect.ofDocument, undeclared]
    rfl
  have first := visited (bound + 3) (by omega)
  have plain : ∀ entry ∈ (listing choices).entries, entry.1 ∈ Keyword.plain := by
    simp [listing, Keyword.plain]
  have second := Fresh.visit_quiet (Context.of_official .root rfl) (idle_of_fresh .root fresh)
    (fun entry listed => Keyword.plain_holds_none _ (plain entry listed)) bound
  refine ⟨bound + 4, ?_⟩
  rw [SchemaPack.canonicalize, saturate_eq, root, Traced.ofExcept_ok_bind]
  by_cases changed : 0 < (Fresh.visit canonicalRules Keyword.find?
      (Encoding.resolver Dialect.official) (bound + 3) Dialect.draft202012 .root
        document).applications
  · rw [Fresh.runPasses_of_changed first changed]
    dsimp only
    rw [Fresh.runPasses_of_unchanged ⟨second.result, second.applications⟩]
  · rw [Fresh.runPasses_of_unchanged ⟨first, by omega⟩]

end Runs

theorem compiles_iff_of_canonical {document canonical : Json} {encoding : Encoding}
    (root : Dialect.ofDocument document (some Dialect.draft202012) = .ok Dialect.draft202012)
    (reached : ∃ limit, (canonicalize Dialect.official (some Dialect.draft202012) document
      limit).result = .ok canonical)
    (row : Row canonical encoding) (result : Json) :
    Compiles (some Dialect.draft202012) document result ↔ result = encoding.document := by
  obtain ⟨limit, given⟩ := reached
  have still := (canonicalize_ofDocument given).trans root
  have foreign : Dialect.ofDocument canonical (some Dialect.draft202012) ≠
      .ok Encoding.metaschemaId := by
    rw [still]
    exact fun same => foreign_draft202012 (Except.ok.inj same)
  have decided : Decides Vocabulary.official canonical encoding := .row (by decide) row
  have planned : ∀ {more planned}, (plan Dialect.official (some Dialect.draft202012) canonical
      more).result = .ok planned → planned = encoding.document := by
    intro more planned ended
    obtain ⟨dialect, vocabularies, other, planning⟩ := exists_planning foreign ended
    cases still.symm.trans planning.root
    cases Dialect.vocabularies_draft202012.symm.trans planning.active
    rw [planning.written, planning.decided.unique decided]
  constructor
  · intro compiled
    obtain ⟨other, ⟨more, again⟩, _, ended⟩ := compiles_iff.mp compiled
    rw [canonicalize] at given again
    have left := (saturate_extends canonicalRules Keyword.find? _ _ document
      (Nat.le_max_left limit more)).eq_of_ok given
    have right := (saturate_extends canonicalRules Keyword.find? _ _ document
      (Nat.le_max_right limit more)).eq_of_ok again
    rw [left.symm.trans right, again] at given
    cases given
    exact planned ended
  · rintro rfl
    obtain ⟨more, ending, ended⟩ := plan_total root foreign_draft202012 base_draft202012 given
    exact compiles_iff.mpr ⟨canonical, ⟨limit, given⟩, more, planned ended ▸ ended⟩

theorem exists_listRow {choices : List Json} (some_left : choices ≠ []) :
    ∃ encoding, ListRow choices encoding := by
  match choices with
  | [] => exact absurd rfl some_left
  | [value] => exact ⟨_, .single value⟩
  | first :: second :: rest =>
    have several : 2 ≤ (first :: second :: rest).length := by simp
    by_cases few : (first :: second :: rest).length ≤ 256
    · exact ⟨_, .byte several few⟩
    · exact ⟨_, .large (by omega)⟩

section Statement

variable {values : List Json}

theorem compiles_of_settles (nonempty : values ≠ []) {choices : List Json}
    (chosen : Chosen values choices) (settles : Settles (listing values) choices) :
    ∃ encoding, ListRow choices encoding ∧
      ∀ result, Compiles (some Dialect.draft202012) (listing values) result ↔
        result = encoding.document := by
  obtain ⟨encoding, row⟩ := exists_listRow (chosen.some_left nonempty)
  refine ⟨encoding, row, ?_⟩
  exact compiles_iff_of_canonical rfl (settles.canonicalize rfl chosen.fresh)
    (.listed rfl row)

theorem exists_settles_of_compiles {result : Json}
    (compiled : Compiles (some Dialect.draft202012) (listing values) result) :
    ∃ choices, Chosen values choices ∧ Settles (listing values) choices := by
  obtain ⟨_, ⟨limit, given⟩, _⟩ := compiles_iff.mp compiled
  rw [canonicalize, saturate_eq] at given
  obtain ⟨_, root, run⟩ := Traced.ofExcept_bind_ok given
  cases root
  obtain ⟨fewer, _, _, visited, _⟩ := Fresh.runPasses_cases run
  cases fewer with
  | zero => cases visited
  | succ steps =>
    obtain ⟨_, settled, _⟩ := Traced.bind_result_ok visited
    exact exists_settles_of_settled settled

end Statement

/-- Constants and listed values are compiled to themselves, whatever they look like: neither what
    could be a schema nor what could be an encoding is one here. Of listed values only duplicates
    are dropped, and how those that are left are encoded depends on their number alone. There is an
    encoding unless more than 20 values are listed that comparison does not order. -/
theorem compiles_literals (value : Json) (values : List Json) (nonempty : values ≠ []) :
    (∀ result, Compiles (some Dialect.draft202012) (object [("const", value)]) result ↔
        result = (Encoding.constNone value).document) ∧
      (hasDuplicates values = some false → ∃ encoding, ListRow values encoding ∧
        ∀ result, Compiles (some Dialect.draft202012) (object [("enum", array values)]) result ↔
          result = encoding.document) ∧
      (∀ result, Compiles (some Dialect.draft202012) (object [("enum", array values)]) result →
        ∃ choices encoding, (∀ choice ∈ choices, choice ∈ values) ∧
          hasDuplicates choices = some false ∧ ListRow choices encoding ∧
            result = encoding.document) ∧
      (Orderable values →
        ∃ result, Compiles (some Dialect.draft202012) (object [("enum", array values)]) result) := by
  refine ⟨?_, ?_, ?_, ?_⟩
  · have row : Row (listing [value]) (.constNone value) := .listed rfl (.single value)
    exact compiles_iff_of_canonical rfl ((settles_constant value).canonicalize rfl rfl) row
  · exact fun fresh => compiles_of_settles nonempty (.of_fresh fresh) (.of_fresh fresh)
  · intro result compiled
    obtain ⟨choices, chosen, settles⟩ := exists_settles_of_compiles compiled
    obtain ⟨encoding, row, planned⟩ := compiles_of_settles nonempty chosen settles
    exact ⟨choices, encoding, chosen.drawn, chosen.fresh, row, (planned result).mp compiled⟩
  · intro orderable
    obtain ⟨choices, chosen, settles⟩ := exists_settles orderable
    obtain ⟨encoding, _, planned⟩ := compiles_of_settles nonempty chosen settles
    exact ⟨_, (planned _).mpr rfl⟩

/-- What looks like an encoding or like a schema with a dialect of its own is data where it is
    listed. -/
theorem compiles_literals_lookalikes :
    let written := (Encoding.constNone (.bool true)).document
    let schema := object [("$schema", .string "http://json-schema.org/draft-07/schema#"),
      ("minimum", .number (.integer 3)), ("const", .number (.integer 3))]
    let values := [written, schema, .bool true]
    values ≠ [] ∧ hasDuplicates values = some false ∧ Orderable values ∧
      (∀ result, Compiles (some Dialect.draft202012) (object [("const", written)]) result ↔
        result = (Encoding.constNone written).document) ∧
        ∀ result, Compiles (some Dialect.draft202012) (object [("enum", array values)]) result ↔
          result = (Encoding.topLevelByteChoiceIndex values).document := by
  intro written schema values
  have fresh : hasDuplicates values = some false := by decide +kernel
  obtain ⟨constant, listed, _⟩ := compiles_literals written values (List.cons_ne_nil _ _)
  obtain ⟨encoding, row, planned⟩ := listed fresh
  cases row.unique (.byte (by decide) (by decide))
  exact ⟨List.cons_ne_nil _ _, fresh, .inl (by decide), constant, planned⟩

/-- There are duplicates among 65 pairs that comparison does not order, and they are never
    dropped. -/
theorem compile_endless :
    undiminished ≠ [] ∧ hasDuplicates undiminished = some true ∧
      ∀ limit, (compile Dialect.official (some Dialect.draft202012)
        (object [("enum", array undiminished)]) limit).result = .error .outOfSteps := by
  refine ⟨List.cons_ne_nil _ _, hasDuplicates_undiminished, fun limit => ?_⟩
  rw [compile]
  exact congrArg Traced.result (Traced.bind_error (canonicalize_undiminished limit) _)

end SchemaPack
