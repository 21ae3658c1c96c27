import SchemaPack.Proofs.Canonical.Origins
import SchemaPack.Proofs.Rules.Paths
import SchemaPack.Proofs.Rules.Steps

namespace SchemaPack

/-- A path that leads only through keywords which stay on their nodes: into definitions, from these
    into their own definitions, or into what holds no subschemas. -/
inductive Sheltered : List String → Prop
  | node : Sheltered []
  | definitions : Sheltered ["$defs"]
  | definition {name : String} {path : List String} (inside : Sheltered path) :
      Sheltered ("$defs" :: name :: path)
  | data {keyword : String} {path : List String} (wrapper : keyword ∈ Spelling.wrapperKeywords)
      (other : keyword ≠ "$defs") : Sheltered (keyword :: path)

theorem Sheltered.head {name : String} {path : List String} (sheltered : Sheltered (name :: path)) :
    name ∈ Spelling.wrapperKeywords := by
  cases sheltered with
  | definitions | definition => decide
  | data wrapper => exact wrapper

theorem Spelling.wrapper_not_index : ∀ name ∈ wrapperKeywords, Pointer.index? name = none := by
  decide

theorem Keyword.wrapper_role : ∀ keyword ∈ Keyword.all,
    keyword.name ∈ Spelling.wrapperKeywords → keyword.role.holdsSubschemas = true →
      keyword.name = "$defs" ∧ keyword.role = .subschemaMap := by
  decide +kernel

theorem Spelling.role_of_wrapper {vocabularies : Vocabularies} {name : String} {role : Role}
    (wrapper : name ∈ wrapperKeywords)
    (known : (Keyword.find? vocabularies name).map Keyword.role = some role)
    (holds : role.holdsSubschemas = true) : name = "$defs" ∧ role = .subschemaMap := by
  obtain ⟨keyword, found, rfl⟩ := Option.map_eq_some_iff.mp known
  have named := List.find?_some found
  simp only [Bool.and_eq_true, beq_iff_eq] at named
  obtain ⟨rfl, _⟩ := named
  exact Keyword.wrapper_role keyword (List.mem_of_find?_eq_some found) wrapper holds

/-- Canonical rules keep sheltered paths, whatever they do to the rest of a node. -/
theorem sheltered_carries (events : List Event) :
    Fresh.Carries canonicalRules Keyword.find? events fun _ path => Sheltered path where
  apply := by
    intro rule listed node context condition _ path sheltered
    cases path with
    | nil => exact .nil _ _
    | cons name path =>
      have wrapper := sheltered.head
      have kept := canonicalRules_keep_wrapper wrapper rule listed node context condition
      apply Pointer.Survives.cons
      intro value found
      refine ⟨value, ?_, id⟩
      rw [Pointer.step?_eq_get? (Spelling.wrapper_not_index name wrapper)] at found ⊢
      rw [kept, found]
  value := by
    intro vocabularies name role _ path sheltered
    have other := (Spelling.role_of_wrapper sheltered.head role rfl).2
    cases other
  inside := by
    intro vocabularies name role known holds _ token path sheltered
    have inside : role.holdsSubschemas = true := by rcases holds with rfl | rfl <;> rfl
    obtain ⟨named, _⟩ := Spelling.role_of_wrapper sheltered.head known inside
    cases sheltered with
    | definition inside => exact inside
    | data _ other => exact (other named).elim

theorem canonicalize_survives {resolver : Resolver} {default : Option String}
    {document result : Json} {limit : Nat} {events : List Event}
    (h : (canonicalize resolver default document limit).Gives events result)
    {safe : Pointer → List String → Prop}
    (carries : Fresh.Carries canonicalRules Keyword.find? events safe) {path : List String}
    (kept : safe .root path) : Pointer.Survives path document result := by
  rw [canonicalize, saturate_eq] at h
  obtain ⟨dialect, _, later⟩ := h.of_bind
  exact Fresh.runPasses_carries carries later kept

/-- References in a canonical schema are references of the schema it was made from. Where these all
    point at something, so do those in the canonical schema, except where a rule has taken away
    what lay at the end of the path. No rule does so to a sheltered path. -/
theorem canonicalize_references (resolver : Resolver) (default : Option String)
    (document result : Json) (limit : Nat) (dialect : String)
    (root : Dialect.ofDocument document default = .ok dialect)
    (resolvable : Resolvable Keyword.find? (Encoding.resolver resolver) dialect document)
    (h : (canonicalize resolver default document limit).result = .ok result) (reference : Json)
    (refers : Refers Keyword.find? (Encoding.resolver resolver) ⟨dialect, .root, result⟩
      reference) :
    Refers Keyword.find? (Encoding.resolver resolver) ⟨dialect, .root, document⟩ reference ∧
      ∃ pointer, Designates document reference pointer ∧
        ((∀ event ∈ (canonicalize resolver default document limit).events,
          ¬event.Severs pointer) → Designates result reference pointer) ∧
            (Sheltered pointer.tokens → Designates result reference pointer) := by
  have origin := canonicalize_refers root h refers
  obtain ⟨pointer, fragment, there⟩ := resolvable reference origin
  have given : (canonicalize resolver default document limit).Gives _ result := .of_result h
  refine ⟨origin, pointer, ⟨fragment, there⟩, ?_, ?_⟩
  · intro unsevered
    exact ⟨fragment, canonicalize_survives given (Fresh.carries_of_unsevered unsevered) rfl there⟩
  · intro sheltered
    exact ⟨fragment, canonicalize_survives given (sheltered_carries _) sheltered there⟩

theorem Context.of_draft202012 (place : Pointer) {node : Json}
    (undeclared : Dialect.declared? node = none) :
    Context.of (Encoding.resolver Dialect.official) Dialect.draft202012 place node =
      .ok ⟨Dialect.draft202012, Dialect.draft202012, [Vocabulary.core, Vocabulary.applicator,
        Vocabulary.unevaluated, Vocabulary.validation, Vocabulary.metaData,
        Vocabulary.formatAnnotated, Vocabulary.content], place⟩ := by
  rw [Context.of_eq_ok_iff]
  dsimp only
  refine ⟨by decide +kernel, by decide +kernel, ?_, rfl⟩
  rw [Dialect.ofNode, undeclared]
  rfl

theorem canonicalize_references_definition :
    let resolver := Encoding.resolver Dialect.official
    let default := some Dialect.draft202012
    let reference := Json.string "#/$defs/count"
    let document := Json.object [
      ("type", .array [.string "object", .string "null"]),
      ("$defs", .object [("count", .object [("type", .string "integer"),
        ("exclusiveMinimum", .number (.integer 0))])]),
      ("additionalProperties", .object [("$ref", reference)])]
    let branch := Json.object [("type", .string "object"),
      ("additionalProperties", .object [("$ref", reference)]),
      ("minProperties", .number (.integer 0)), ("required", .array []),
      ("properties", .emptyObject)]
    let result := Json.object [
      ("$defs", .object [("count", .object [("type", .string "integer"),
        ("minimum", .number (.integer 1)), ("multipleOf", .number (.integer 1))])]),
      ("anyOf", .array [branch, .object [("enum", .array [.null])]])]
    let run := canonicalize Dialect.official default document 60
    Dialect.ofDocument document default = .ok Dialect.draft202012 ∧
      Resolvable Keyword.find? resolver Dialect.draft202012 document ∧ run.result = .ok result ∧
        Refers Keyword.find? resolver ⟨Dialect.draft202012, .root, result⟩ reference ∧
          Refers Keyword.find? resolver ⟨Dialect.draft202012, .root, document⟩ reference ∧
            ∃ pointer, Designates document reference pointer ∧
              ((∀ event ∈ run.events, ¬event.Severs pointer) →
                Designates result reference pointer) ∧
                  (Sheltered pointer.tokens → Designates result reference pointer) := by
  intro resolver default reference document branch result run
  have root : Dialect.ofDocument document default = .ok Dialect.draft202012 := by decide +kernel
  have resolvable : Resolvable Keyword.find? resolver Dialect.draft202012 document :=
    resolvable_of_valuesOf (by decide +kernel)
  have given : run.result = .ok result := by decide +kernel
  have refers : Refers Keyword.find? resolver ⟨Dialect.draft202012, .root, result⟩ reference := by
    have to_branch : Subschema Keyword.find? resolver ⟨Dialect.draft202012, .root, result⟩
        ⟨Dialect.draft202012, (Pointer.root.child "anyOf").item 0, branch⟩ :=
      .element (Context.of_draft202012 _ rfl) (List.mem_cons_of_mem _ List.mem_cons_self)
        (by decide +kernel) rfl
    have to_rest : Subschema Keyword.find? resolver
        ⟨Dialect.draft202012, (Pointer.root.child "anyOf").item 0, branch⟩
        ⟨Dialect.draft202012, ((Pointer.root.child "anyOf").item 0).child "additionalProperties",
          .object [("$ref", reference)]⟩ :=
      .value (Context.of_draft202012 _ rfl) (List.mem_cons_of_mem _ List.mem_cons_self)
        (by decide +kernel)
    exact ((refers_iff.mpr (.inl List.mem_cons_self)).inside to_rest).inside to_branch
  exact ⟨root, resolvable, given, refers,
    canonicalize_references _ _ document result 60 _ root resolvable given reference refers⟩

/-- Properties move into the branches when the types of their node are split. A reference to one of
    them still points to where it was. -/
theorem canonicalize_strands_reference :
    let resolver := Encoding.resolver Dialect.official
    let default := some Dialect.draft202012
    let reference := Json.string "#/properties/first"
    let document := Json.object [
      ("type", .array [.string "object", .string "null"]),
      ("properties", .object [("first", .object [("type", .string "number")]),
        ("second", .object [("$ref", reference)])])]
    let branch := Json.object [("type", .string "object"),
      ("properties", .object [("first", .object [("type", .string "number")]),
        ("second", .object [("$ref", reference)])]),
      ("minProperties", .number (.integer 0)), ("required", .array [])]
    let result := Json.object [("anyOf", .array [branch, .object [("enum", .array [.null])]])]
    Dialect.ofDocument document default = .ok Dialect.draft202012 ∧
      Resolvable Keyword.find? resolver Dialect.draft202012 document ∧
        (canonicalize Dialect.official default document).result = .ok result ∧
          Refers Keyword.find? resolver ⟨Dialect.draft202012, .root, result⟩ reference ∧
            ¬∃ pointer, Designates result reference pointer := by
  intro resolver default reference document branch result
  refine ⟨by decide +kernel, resolvable_of_valuesOf (by decide +kernel), ?_, ?_, ?_⟩
  · have given : (canonicalize Dialect.official default document 60).result = .ok result := by
      decide +kernel
    have longer := saturate_extends canonicalRules Keyword.find? resolver default document
      (by decide : 60 ≤ stepLimit)
    rw [canonicalize, longer.eq_of_ok given]
    exact given
  · have to_branch : Subschema Keyword.find? resolver ⟨Dialect.draft202012, .root, result⟩
        ⟨Dialect.draft202012, (Pointer.root.child "anyOf").item 0, branch⟩ :=
      .element (Context.of_draft202012 _ rfl) List.mem_cons_self (by decide +kernel) rfl
    have to_second : Subschema Keyword.find? resolver
        ⟨Dialect.draft202012, (Pointer.root.child "anyOf").item 0, branch⟩
        ⟨Dialect.draft202012,
          (((Pointer.root.child "anyOf").item 0).child "properties").child "second",
          .object [("$ref", reference)]⟩ :=
      .member (Context.of_draft202012 _ rfl) (List.mem_cons_of_mem _ List.mem_cons_self)
        (by decide +kernel) (List.mem_cons_of_mem _ List.mem_cons_self)
    exact ((refers_iff.mpr (.inl List.mem_cons_self)).inside to_second).inside to_branch
  · rw [exists_designates_iff]
    decide +kernel

end SchemaPack
