import SchemaPack.Proofs.Json.Pointer
import SchemaPack.Proofs.Rules.Parts

namespace SchemaPack

/-- An application that takes away what a path selects below the node. -/
def Event.Severs (event : Event) (path : Pointer) : Prop :=
  ∃ context node rule rest, event = .examined context node (some rule) ∧
    path.tokens = context.pointer.tokens ++ rest ∧ ¬Pointer.Survives rest node (rule.transform node)

namespace Fresh

/-- Paths that no application takes away, each from the node at a place. What is left of a path
    is safe again below a subschema that it leads through. -/
structure Carries (rules : List Rule) (walker : Walker) (events : List Event)
    (safe : Pointer → List String → Prop) : Prop where
  apply : ∀ rule ∈ rules, ∀ node context, rule.condition node context = true →
    .examined context node (some rule) ∈ events → ∀ path, safe context.pointer path →
      Pointer.Survives path node (rule.transform node)
  value : ∀ vocabularies name, (walker vocabularies name).map Keyword.role = some .subschema →
    ∀ pointer path, safe pointer (name :: path) → safe (pointer.child name) path
  inside : ∀ vocabularies name role, (walker vocabularies name).map Keyword.role = some role →
    role = .subschemaList ∨ role = .subschemaMap → ∀ pointer token path,
      safe pointer (name :: token :: path) → safe ((pointer.child name).child token) path

variable {rules : List Rule} {walker : Walker} {resolver : Resolver} {events : List Event}
  {safe : Pointer → List String → Prop}

section Children

variable {visit : Pointer → Json → Traced Json}
  (inside : ∀ pointer node result, (visit pointer node).Gives events result → ∀ path,
    safe pointer path → Pointer.Survives path node result)

include inside

theorem visitItems_carries {pointer : Pointer} {items results : List Json}
    (h : (visitItems visit pointer 0 items).Gives events results) {token : String}
    {path : List String} (kept : safe (pointer.child token) path) :
    Pointer.Survives (token :: path) (.array items) (.array results) := by
  obtain ⟨length, visited⟩ := visitItems_gives h
  apply Pointer.Survives.cons
  intro item selected
  obtain ⟨index, numbered, from_item⟩ := Option.bind_eq_some_iff.mp selected
  have bound := (List.getElem?_eq_some_iff.mp from_item).1
  have to_result := List.getElem?_eq_getElem (length ▸ bound : index < results.length)
  have given := visited index item _ from_item to_result
  rw [Nat.zero_add, Pointer.item, ← Pointer.eq_toString_of_index? numbered] at given
  exact ⟨_, Option.bind_eq_some_iff.mpr ⟨index, numbered, to_result⟩,
    inside _ item _ given path kept⟩

theorem visitEntries_carries {pointer : Pointer} {entries results : Members}
    (h : (visitEntries visit pointer entries).Gives events results) {token : String}
    {path : List String} (kept : safe (pointer.child token) path) :
    Pointer.Survives (token :: path) (.object entries) (.object results) := by
  apply Pointer.Survives.cons
  intro value selected
  obtain ⟨result, there, given⟩ := Members.get?_of_forall₂
    (fun name value result => (visit (pointer.child name) value).Gives events result)
    (visitEntries_gives h) selected
  exact ⟨result, there, inside _ value result given path kept⟩

theorem visitKeyword_carries (carries : Carries rules walker events safe)
    {vocabularies : Vocabularies} {pointer : Pointer} {name : String} {value result : Json}
    (h : (visitKeyword walker visit vocabularies pointer name value).Gives events result)
    {path : List String} (kept : safe pointer (name :: path)) :
    Pointer.Survives path value result := by
  rcases visitKeyword_gives h with ⟨role, given⟩ | ⟨items, results, role, rfl, rfl, given⟩ |
    ⟨members, results, role, rfl, rfl, given⟩ | ⟨rfl, _⟩
  · exact inside _ value result given path (carries.value vocabularies name role pointer path kept)
  · cases path with
    | nil => exact .nil _ _
    | cons token path =>
      have below := carries.inside vocabularies name _ role (.inl rfl) pointer token path kept
      exact visitItems_carries inside given below
  · cases path with
    | nil => exact .nil _ _
    | cons token path =>
      have below := carries.inside vocabularies name _ role (.inr rfl) pointer token path kept
      exact visitEntries_carries inside given below
  · exact id

end Children

theorem visit_carries (carries : Carries rules walker events safe) {steps : Nat}
    {inherited : String} {pointer : Pointer} {node result : Json}
    (h : (visit rules walker resolver steps inherited pointer node).Gives events result)
    {path : List String} (kept : safe pointer path) : Pointer.Survives path node result := by
  induction steps generalizing inherited pointer node result path with
  | zero => cases h.1
  | succ steps ih =>
    obtain ⟨fewer, context, settled, same, first, later⟩ := visit_gives h
    cases same
    have apply : ∀ rule ∈ rules, ∀ middle context,
        Context.of resolver inherited pointer middle = .ok context →
          rule.condition middle context = true → .examined context middle (some rule) ∈ events →
            Pointer.Survives path node middle →
              Pointer.Survives path node (rule.transform middle) := by
      intro rule listed middle context here condition applied survives selected
      have place := (Context.of_eq_ok_iff.mp here).2.2.2
      exact carries.apply rule listed middle context condition applied path (place ▸ kept)
        (survives selected)
    have settles := (settle_gives (Pointer.Survives path node ·) apply first id).2
    rcases later with ⟨members, results, rfl, rfl, given⟩ | ⟨_, rfl⟩
    · suffices Pointer.Survives path (.object members) (.object results) from this ∘ settles
      cases path with
      | nil => exact .nil _ _
      | cons name path =>
        apply Pointer.Survives.cons
        intro value selected
        obtain ⟨result, there, visited⟩ := Members.get?_of_forall₂
          (fun name value result => (visitKeyword walker (visit rules walker resolver steps
            context.dialect) context.vocabularies pointer name value).Gives events result)
          (visitKeywords_gives given) selected
        have inside := fun pointer node result
            (given : (visit rules walker resolver steps context.dialect pointer node).Gives events
              result) path (kept : safe pointer path) => ih given kept
        exact ⟨result, there, visitKeyword_carries inside carries visited kept⟩
    · exact settles

theorem runPasses_carries (carries : Carries rules walker events safe) {dialect : String}
    {steps number applied : Nat} {document result : Json}
    (h : (runPasses rules walker resolver dialect steps number applied document).Gives events
      result)
    {path : List String} (kept : safe .root path) : Pointer.Survives path document result := by
  intro selected
  have pass : ∀ steps document passed,
      (visit rules walker resolver steps dialect .root document).Gives events passed →
        Pointer.Survives path document passed :=
    fun steps document passed visited => visit_carries carries visited kept
  exact runPasses_gives _ pass h selected

/-- A path is safe at every place on it if no application takes away what is left of it there. -/
theorem carries_of_unsevered {path : Pointer} (unsevered : ∀ event ∈ events, ¬event.Severs path) :
    Carries rules walker events fun place rest => path.tokens = place.tokens ++ rest where
  apply := by
    intro rule _ node context _ applied rest left
    by_contra lost
    exact unsevered _ applied ⟨context, node, rule, rest, rfl, left, lost⟩
  value := by
    intro _ name _ place rest left
    simp [Pointer.child, left]
  inside := by
    intro _ name _ _ _ place token rest left
    simp [Pointer.child, left]

end Fresh

end SchemaPack
