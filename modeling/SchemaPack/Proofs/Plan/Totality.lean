import SchemaPack.Proofs.Canonical.Idempotence
import SchemaPack.Proofs.Plan.Decision
import SchemaPack.Proofs.Plan.Settlement

namespace SchemaPack

/-- A computation that succeeds, and what holds of its outcome. -/
def Traced.Attains {α : Type} (x : Traced α) (holds : α → Prop) : Prop :=
  ∃ a, x.result = .ok a ∧ holds a

namespace Traced.Attains

variable {α β : Type} {holds : α → Prop} {reached : β → Prop}

theorem pure {a : α} (given : holds a) : (Pure.pure a : Traced α).Attains holds :=
  ⟨a, rfl, given⟩

theorem bind {x : Traced α} {f : α → Traced β} (first : x.Attains holds)
    (later : ∀ a, holds a → (f a).Attains reached) : (x >>= f).Attains reached := by
  obtain ⟨a, given, known⟩ := first
  obtain ⟨b, last, known⟩ := later a known
  refine ⟨b, ?_, known⟩
  rw [bind_ok given]
  exact last

end Traced.Attains

namespace Fresh

/-- The context of a node is known, and so are those of the subschemas in it, which are no deeper
    than a number of levels. -/
def Familiar (resolver : Resolver) : Nat → String → Pointer → Json → Prop
  | 0, _, _, _ => False
  | levels + 1, inherited, pointer, node =>
    ∃ context, Context.of resolver inherited pointer node = .ok context ∧
      ∀ members, node = .object members → ∀ entry ∈ members,
        EachSubschema Keyword.find? (Familiar resolver levels context.dialect)
          context.vocabularies pointer entry.1 entry.2

theorem familiar_of_idle {rules : List Rule} {resolver : Resolver} {steps : Nat}
    {inherited : String} {pointer : Pointer} {node result : Json}
    (h : (visit rules Keyword.find? resolver steps inherited pointer node).Idle result) :
    Familiar resolver steps inherited pointer node := by
  induction steps generalizing inherited pointer node result with
  | zero => cases h.1
  | succ steps ih =>
    obtain ⟨⟨context, settled⟩, first, later⟩ := Traced.Idle.of_bind h
    have same := settle_idle first
    subst same
    refine ⟨context, (settle_unmatched first.1).1, ?_⟩
    rintro members rfl entry listed
    obtain ⟨results, second, _⟩ := Traced.Idle.of_bind later
    have inside := fun pointer node result idle =>
      And.intro (visit_idle idle).1 (@ih context.dialect pointer node result idle)
    exact (visitKeywords_idle inside second).2 entry.1 entry.2 listed

theorem eachSubschema_of_plain {property : Pointer → Json → Prop} {vocabularies : Vocabularies}
    {pointer : Pointer} {name : String} {value : Json} (plain : name ∈ Keyword.plain) :
    EachSubschema Keyword.find? property vocabularies pointer name value := by
  have none := Keyword.plain_holds_none vocabularies plain
  unfold EachSubschema
  generalize (Keyword.find? vocabularies name).map Keyword.role = role at none ⊢
  rcases role with _ | role
  · trivial
  · cases role with
    | subschema | subschemaList | subschemaMap => cases none
    | identity | reference | comment | assertion | descriptive => trivial

theorem visitMembers_total {look : String → Json → Traced Json} {property : String → Json → Prop}
    (total : ∀ name value, property name value → (look name value).Attains (property name))
    {members : Members} (each : ∀ entry ∈ members, property entry.1 entry.2) :
    (visitMembers look members).Attains fun results =>
      ∀ entry ∈ results, property entry.1 entry.2 := by
  induction members with
  | nil => exact .pure each
  | cons entry rest ih =>
    rw [List.forall_mem_cons] at each
    apply (total _ _ each.1).bind
    intro result first
    apply (ih each.2).bind
    intro results later
    exact .pure (List.forall_mem_cons.mpr ⟨first, later⟩)

section Children

variable {look : Pointer → Json → Traced Json} {property : Pointer → Json → Prop}
  (total : ∀ pointer node, property pointer node → (look pointer node).Attains (property pointer))

include total

theorem visitItems_total {pointer : Pointer} {start : Nat} {items : List Json}
    (each : ∀ index node, items[index]? = some node →
      property (pointer.item (start + index)) node) :
    (visitItems look pointer start items).Attains fun results =>
      ∀ index node, results[index]? = some node →
        property (pointer.item (start + index)) node := by
  induction items generalizing start with
  | nil => exact .pure each
  | cons item rest ih =>
    have shifted : ∀ index, start + 1 + index = start + (index + 1) := by omega
    apply (total _ _ (each 0 item rfl)).bind
    intro result first
    apply (@ih (start + 1) fun index node found => shifted index ▸ each (index + 1) node found).bind
    intro results later
    refine .pure fun index node found => ?_
    cases index with
    | zero =>
      cases found
      exact first
    | succ index => exact shifted index ▸ later index node found

theorem visitKeyword_total {vocabularies : Vocabularies} {pointer : Pointer} {name : String}
    {value : Json}
    (each : EachSubschema Keyword.find? property vocabularies pointer name value) :
    (visitKeyword Keyword.find? look vocabularies pointer name value).Attains
      (EachSubschema Keyword.find? property vocabularies pointer name) := by
  unfold visitKeyword
  unfold EachSubschema at each ⊢
  generalize (Keyword.find? vocabularies name).map Keyword.role = role at each ⊢
  rcases role with _ | role
  · exact .pure trivial
  · cases role with
    | subschema => exact total _ _ each
    | subschemaList =>
      cases value with
      | array items =>
        have every := @visitItems_total look property total (pointer.child name) 0 items
        simp only [Nat.zero_add] at every
        exact (every each).bind fun _ later => .pure later
      | null | bool | number | string | object => exact .pure trivial
    | subschemaMap =>
      cases value with
      | object members =>
        dsimp only
        rw [visitEntries_eq]
        have entries := visitMembers_total (fun key => total ((pointer.child name).child key))
          fun entry => each entry.1 entry.2
        exact entries.bind fun _ later => .pure fun key node => later (key, node)
      | null | bool | number | string | array => exact .pure trivial
    | identity | reference | comment | assertion | descriptive => exact .pure trivial

theorem visitKeywords_total {vocabularies : Vocabularies} {pointer : Pointer} {members : Members}
    (each : ∀ entry ∈ members,
      EachSubschema Keyword.find? property vocabularies pointer entry.1 entry.2) :
    (visitKeywords Keyword.find? look vocabularies pointer members).Attains fun results =>
      ∀ entry ∈ results,
        EachSubschema Keyword.find? property vocabularies pointer entry.1 entry.2 := by
  rw [visitKeywords_eq]
  refine visitMembers_total ?_ each
  exact fun _ _ => visitKeyword_total total

end Children

section Planning

variable {resolver : Resolver} {dialect inherited : String} {pointer : Pointer} {node : Json}
  (based : Dialect.base (Encoding.resolver resolver) dialect = .ok Dialect.draft202012)

include based

theorem settle_total {context : Context} {steps : Nat}
    (here : Context.of (Encoding.resolver resolver) inherited pointer node = .ok context) :
    (settle planRules (Encoding.resolver resolver) inherited pointer (steps + 2) node).Attains
      fun settled => settled = (context, node) ∨
        ∃ encoding : Encoding, settled = (Encoding.context pointer, encoding.document) := by
  cases matched : planRules.find? (·.condition node context) with
  | none =>
    have idle : Rule.Idle planRules node context :=
      .of_safe planRules_safe (by simpa using List.find?_eq_none.mp matched)
    rw [settle_unmatched_eq here idle]
    exact ⟨_, rfl, .inl rfl⟩
  | some rule =>
    have condition := List.find?_some matched
    obtain ⟨_, encoding, transformed, _⟩ :=
      planRules_plan rule (List.mem_of_find?_eq_some matched) node context condition
    have there := Encoding.context_of_document based inherited pointer encoding
    have idle := planRules_idle_of_dialect (Context.of_dialect there)
    rw [settle, here, Traced.ofExcept_ok_bind, planRules_first, pure_bind, matched, Traced.bind_ok (Traced.emit_result _)]
    dsimp only
    rw [transformed, settle_unmatched_eq there idle]
    exact ⟨_, rfl, .inr ⟨encoding, rfl⟩⟩

theorem visit_total {levels steps : Nat}
    (known : Familiar (Encoding.resolver resolver) levels inherited pointer node)
    (enough : levels + 2 ≤ steps) :
    (visit planRules Keyword.find? (Encoding.resolver resolver) steps inherited pointer
      node).Attains (Familiar (Encoding.resolver resolver) levels inherited pointer) := by
  induction levels generalizing steps inherited pointer node with
  | zero => cases known
  | succ levels ih =>
    obtain ⟨steps, rfl⟩ : ∃ fewer, steps = fewer + 3 := ⟨steps - 3, by omega⟩
    obtain ⟨context, here, each⟩ := known
    rw [visit]
    apply (settle_total based here).bind
    rintro ⟨_, settled⟩ (same | ⟨encoding, same⟩)
    · cases same
      cases node with
      | object members =>
        have inside := fun pointer node known =>
          @ih context.dialect pointer node (steps + 2) known (by omega)
        obtain ⟨results, visited, every⟩ := visitKeywords_total inside (each members rfl)
        dsimp only
        rw [Traced.bind_ok visited]
        refine ⟨_, rfl, context, Context.of_alike here (visitKeywords_alike visited), ?_⟩
        rintro _ ⟨⟩
        exact every
      | null | bool | number | string | array =>
        refine .pure ⟨context, here, ?_⟩
        rintro _ ⟨⟩
    · cases same
      obtain ⟨members, document⟩ : ∃ members, Json.object members = encoding.document := ⟨_, rfl⟩
      have plain := Encoding.plain_of_document document
      have there := Encoding.context_of_document based inherited pointer encoding
      rw [← document] at there ⊢
      dsimp only
      rw [visitKeywords_eq_pure plain, pure_bind]
      refine .pure ⟨_, there, ?_⟩
      rintro _ ⟨⟩ entry listed
      exact eachSubschema_of_plain (plain entry listed)

theorem runPasses_total {levels number applied : Nat}
    (known : Familiar (Encoding.resolver resolver) levels inherited .root node) :
    ∃ result, (runPasses planRules Keyword.find? (Encoding.resolver resolver) inherited (levels + 4)
      number applied node).result = .ok result := by
  obtain ⟨passed, first, still⟩ := @visit_total _ _ _ _ _ based _ (levels + 3) known (by omega)
  by_cases changed : 0 < (visit planRules Keyword.find? (Encoding.resolver resolver) (levels + 3)
      inherited .root node).applications
  · obtain ⟨result, second, _⟩ := visit_total based still (Nat.le_refl _)
    have echoes := (visit_echoes first (levels + 2)).applications
    rw [runPasses_of_changed first changed]
    dsimp only
    rw [runPasses_of_unchanged ⟨second, echoes⟩]
    exact ⟨result, rfl⟩
  · rw [runPasses_of_unchanged ⟨first, by omega⟩]
    exact ⟨passed, rfl⟩

end Planning

end Fresh

theorem plan_extends (resolver : Resolver) (default : Option String) (document : Json)
    {limit more : Nat} (le : limit ≤ more) :
    Traced.Extends (plan resolver default document limit)
      (plan resolver default document more) := by
  refine .bind_right fun _ => .bind_right fun _ => ?_
  split
  · exact .refl _
  · exact .bind (saturate_extends _ _ _ _ _ le) fun _ => .refl _

/-- Every canonical schema has a plan. -/
theorem plan_total {resolver : Resolver} {default : Option String} {dialect : String}
    {document canonical : Json} {limit : Nat}
    (root : Dialect.ofDocument document default = .ok dialect)
    (foreign : dialect ≠ Encoding.metaschemaId)
    (based : Dialect.base (Encoding.resolver resolver) dialect = .ok Dialect.draft202012)
    (h : (canonicalize resolver default document limit).result = .ok canonical) :
    ∃ more planned, (plan resolver default canonical more).result = .ok planned := by
  have still := (canonicalize_ofDocument h).trans root
  rw [canonicalize, saturate_eq, root, Traced.ofExcept_ok_bind] at h
  obtain ⟨levels, _, idle⟩ := Fresh.runPasses_last h
  obtain ⟨planned, saturated⟩ : ∃ planned, (saturate planRules (Encoding.resolver resolver)
      default canonical (levels + 4)).result = .ok planned := by
    rw [saturate_eq, still, Traced.ofExcept_ok_bind]
    exact Fresh.runPasses_total based (Fresh.familiar_of_idle idle)
  obtain ⟨own, declared⟩ : ∃ own, Dialect.ofDocument planned default = .ok own := by
    obtain ⟨_, _, ⟨encoding, _, _, rfl⟩ | ⟨same, _⟩⟩ :=
      saturate_planRules still foreign based saturated
    · exact ⟨_, Encoding.ofDocument_dialect default encoding⟩
    · refine ⟨dialect, ?_⟩
      rw [← still, Dialect.ofDocument, Dialect.ofDocument, same]
  refine ⟨levels + 4, ?_⟩
  rw [plan, still, Traced.ofExcept_ok_bind, based, Traced.ofExcept_ok_bind,
    if_neg (not_not_intro rfl), Traced.bind_ok saturated, declared, Traced.ofExcept_ok_bind]
  split
  · exact ⟨planned, rfl⟩
  · exact ⟨_, rfl⟩

end SchemaPack
