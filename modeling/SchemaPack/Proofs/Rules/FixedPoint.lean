import Mathlib.Logic.Relation
import SchemaPack.Proofs.Rules.Memory

namespace SchemaPack

/-- A node of a document, at a pointer from its root, and the dialect of what is around it. -/
structure Site where
  inherited : String
  pointer : Pointer
  node : Json

/-- From a node to a subschema under one of its keywords, as the keyword is understood there. -/
inductive Subschema (walker : Walker) (resolver : Resolver) : Site → Site → Prop
  | value {inherited : String} {pointer : Pointer} {members : Members} {context : Context}
      {name : String} {node : Json}
      (here : Context.of resolver inherited pointer (.object members) = .ok context)
      (entry : (name, node) ∈ members)
      (role : (walker context.vocabularies name).map Keyword.role = some .subschema) :
      Subschema walker resolver ⟨inherited, pointer, .object members⟩
        ⟨context.dialect, pointer.child name, node⟩
  | element {inherited : String} {pointer : Pointer} {members : Members} {context : Context}
      {name : String} {items : List Json} {index : Nat} {node : Json}
      (here : Context.of resolver inherited pointer (.object members) = .ok context)
      (entry : (name, .array items) ∈ members)
      (role : (walker context.vocabularies name).map Keyword.role = some .subschemaList)
      (item : items[index]? = some node) :
      Subschema walker resolver ⟨inherited, pointer, .object members⟩
        ⟨context.dialect, (pointer.child name).item index, node⟩
  | member {inherited : String} {pointer : Pointer} {members : Members} {context : Context}
      {name : String} {entries : Members} {key : String} {node : Json}
      (here : Context.of resolver inherited pointer (.object members) = .ok context)
      (entry : (name, .object entries) ∈ members)
      (role : (walker context.vocabularies name).map Keyword.role = some .subschemaMap)
      (inner : (key, node) ∈ entries) :
      Subschema walker resolver ⟨inherited, pointer, .object members⟩
        ⟨context.dialect, (pointer.child name).child key, node⟩

def Site.Unmatched (rules : List Rule) (resolver : Resolver) (site : Site) : Prop :=
  ∃ context, Context.of resolver site.inherited site.pointer site.node = .ok context ∧
    Rule.Idle rules site.node context

def Traced.Idle {α : Type} (x : Traced α) (a : α) : Prop := x.result = .ok a ∧ x.applications = 0

theorem Traced.Idle.of_bind {α β : Type} {x : Traced α} {f : α → Traced β} {b : β}
    (h : (x >>= f).Idle b) : ∃ a, x.Idle a ∧ (f a).Idle b := by
  obtain ⟨a, first, second⟩ := bind_result_ok h.1
  have total := bind_applications first f
  have none := h.2
  exact ⟨a, ⟨first, by omega⟩, second, by omega⟩

theorem Traced.Idle.eq_of_pure {α : Type} {a b : α} (h : (pure a : Traced α).Idle b) : a = b :=
  Except.ok.inj h.1

namespace Fresh

variable {rules : List Rule} {walker : Walker} {resolver : Resolver}

theorem settle_unmatched {inherited : String} {pointer : Pointer} {steps : Nat} {node : Json}
    {context : Context} {settled : Json}
    (h : (settle rules resolver inherited pointer steps node).result = .ok (context, settled)) :
    Context.of resolver inherited pointer settled = .ok context ∧
      Rule.Idle rules settled context := by
  induction steps generalizing node with
  | zero => cases h
  | succ steps ih =>
    obtain ⟨found, here, ⟨idle, rfl, rfl⟩ | ⟨_, _, later⟩⟩ := settle_succ h
    · exact ⟨here, idle⟩
    · exact ih later

theorem settle_idle {inherited : String} {pointer : Pointer} {steps : Nat} {node : Json}
    {context : Context} {settled : Json}
    (h : (settle rules resolver inherited pointer steps node).Idle (context, settled)) :
    settled = node := by
  cases steps with
  | zero => cases h.1
  | succ steps =>
    rw [settle] at h
    obtain ⟨found, _, h⟩ := Traced.Idle.of_bind h
    obtain ⟨applied, first, h⟩ := Traced.Idle.of_bind h
    obtain ⟨_, quiet, h⟩ := Traced.Idle.of_bind h
    cases applied with
    | some rule => cases quiet.2
    | none =>
      cases h.1
      rfl

/-- Every subschema in the value of a keyword has a property. -/
def EachSubschema (walker : Walker) (property : Pointer → Json → Prop)
    (vocabularies : Vocabularies) (pointer : Pointer) (name : String) (value : Json) : Prop :=
  match (walker vocabularies name).map Keyword.role, value with
  | some .subschema, value => property (pointer.child name) value
  | some .subschemaList, .array items =>
    ∀ index node, items[index]? = some node → property ((pointer.child name).item index) node
  | some .subschemaMap, .object members =>
    ∀ key node, (key, node) ∈ members → property ((pointer.child name).child key) node
  | _, _ => True

theorem EachSubschema.of_step {property : Pointer → Json → Prop} {inherited : String}
    {pointer : Pointer} {members : Members} {context : Context} {child : Site}
    (here : Context.of resolver inherited pointer (.object members) = .ok context)
    (each : ∀ name value, (name, value) ∈ members →
      EachSubschema walker property context.vocabularies pointer name value)
    (step : Subschema walker resolver ⟨inherited, pointer, .object members⟩ child) :
    child.inherited = context.dialect ∧ property child.pointer child.node := by
  cases step with
  | value there entry role =>
    cases here.symm.trans there
    have holds := each _ _ entry
    simp only [EachSubschema, role] at holds
    exact ⟨rfl, holds⟩
  | element there entry role item =>
    cases here.symm.trans there
    have holds := each _ _ entry
    simp only [EachSubschema, role] at holds
    exact ⟨rfl, holds _ _ item⟩
  | member there entry role inner =>
    cases here.symm.trans there
    have holds := each _ _ entry
    simp only [EachSubschema, role] at holds
    exact ⟨rfl, holds _ _ inner⟩

theorem visitMembers_idle {visit : String → Json → Traced Json} {property : String → Json → Prop}
    (inside : ∀ name value result, (visit name value).Idle result →
      result = value ∧ property name value)
    {members results : Members} (h : (visitMembers visit members).Idle results) :
    results = members ∧ ∀ name value, (name, value) ∈ members → property name value := by
  induction members generalizing results with
  | nil => exact ⟨h.eq_of_pure.symm, nofun⟩
  | cons entry rest ih =>
    rw [visitMembers] at h
    obtain ⟨result, first, later⟩ := Traced.Idle.of_bind h
    obtain ⟨others, second, last⟩ := Traced.Idle.of_bind later
    obtain ⟨same, holds⟩ := inside _ _ _ first
    obtain ⟨rest_same, rest_holds⟩ := ih second
    subst same rest_same
    refine ⟨last.eq_of_pure.symm, ?_⟩
    intro name value member
    rcases List.mem_cons.mp member with same | member
    · cases same
      exact holds
    · exact rest_holds name value member

section Children

variable {visit : Pointer → Json → Traced Json} {property : Pointer → Json → Prop}
  (inside : ∀ pointer node result, (visit pointer node).Idle result →
    result = node ∧ property pointer node)

include inside

theorem visitItems_idle {pointer : Pointer} {items results : List Json} {start : Nat}
    (h : (visitItems visit pointer start items).Idle results) :
    results = items ∧
      ∀ index node, items[index]? = some node → property (pointer.item (start + index)) node := by
  induction items generalizing start results with
  | nil =>
    rw [visitItems] at h
    refine ⟨h.eq_of_pure.symm, ?_⟩
    intro index node h
    cases h
  | cons item rest ih =>
    rw [visitItems] at h
    obtain ⟨result, first, later⟩ := Traced.Idle.of_bind h
    obtain ⟨others, second, last⟩ := Traced.Idle.of_bind later
    obtain ⟨same, holds⟩ := inside _ _ _ first
    obtain ⟨rest_same, rest_holds⟩ := ih second
    subst same rest_same
    refine ⟨last.eq_of_pure.symm, ?_⟩
    intro index node at_index
    cases index with
    | zero =>
      cases at_index
      exact holds
    | succ index =>
      have moved := rest_holds index node at_index
      rwa [show start + 1 + index = start + (index + 1) by omega] at moved

theorem visitKeyword_idle {vocabularies : Vocabularies} {pointer : Pointer} {name : String}
    {value result : Json}
    (h : (visitKeyword walker visit vocabularies pointer name value).Idle result) :
    result = value ∧ EachSubschema walker property vocabularies pointer name value := by
  unfold visitKeyword at h
  unfold EachSubschema
  generalize (walker vocabularies name).map Keyword.role = role at h ⊢
  rcases role with _ | role
  · exact ⟨h.eq_of_pure.symm, trivial⟩
  · cases role with
    | subschema => exact inside _ _ _ h
    | subschemaList =>
      cases value with
      | array items =>
        dsimp only at h
        obtain ⟨results, first, last⟩ := Traced.Idle.of_bind h
        obtain ⟨same, holds⟩ := visitItems_idle inside first
        subst same
        refine ⟨last.eq_of_pure.symm, ?_⟩
        intro index node at_index
        simpa using holds index node at_index
      | null | bool | number | string | object => exact ⟨h.eq_of_pure.symm, trivial⟩
    | subschemaMap =>
      cases value with
      | object members =>
        dsimp only at h
        obtain ⟨results, first, last⟩ := Traced.Idle.of_bind h
        rw [visitEntries_eq] at first
        obtain ⟨same, holds⟩ := visitMembers_idle (fun _ => inside _) first
        subst same
        exact ⟨last.eq_of_pure.symm, holds⟩
      | null | bool | number | string | array => exact ⟨h.eq_of_pure.symm, trivial⟩
    | identity | reference | comment | assertion | descriptive =>
      exact ⟨h.eq_of_pure.symm, trivial⟩

theorem visitKeywords_idle {vocabularies : Vocabularies} {pointer : Pointer}
    {entries results : List (String × Json)}
    (h : (visitKeywords walker visit vocabularies pointer entries).Idle results) :
    results = entries ∧
      ∀ name value, (name, value) ∈ entries →
        EachSubschema walker property vocabularies pointer name value := by
  rw [visitKeywords_eq] at h
  exact visitMembers_idle (fun _ _ _ => visitKeyword_idle inside) h

end Children

/-- A visit that applies no rule changes nothing and has seen every subschema, however deep. -/
theorem visit_idle {steps : Nat} {inherited : String} {pointer : Pointer} {node result : Json}
    (h : (visit rules walker resolver steps inherited pointer node).Idle result) :
    result = node ∧ ∀ site,
      Relation.ReflTransGen (Subschema walker resolver) ⟨inherited, pointer, node⟩ site →
        site.Unmatched rules resolver := by
  -- A path from the node goes on from one of its children, which is visited in a step less.
  induction steps generalizing inherited pointer node result with
  | zero => cases h.1
  | succ steps ih =>
    rw [visit] at h
    obtain ⟨⟨context, settled⟩, first, later⟩ := Traced.Idle.of_bind h
    obtain ⟨here, none⟩ := settle_unmatched first.1
    have same := settle_idle first
    subst same
    have unmatched : Site.Unmatched rules resolver ⟨inherited, pointer, settled⟩ :=
      ⟨context, here, none⟩
    cases settled with
    | object members =>
      dsimp only at later
      obtain ⟨results, second, last⟩ := Traced.Idle.of_bind later
      have inside := fun pointer node result => @ih context.dialect pointer node result
      obtain ⟨same, each⟩ := visitKeywords_idle inside second
      subst same
      refine ⟨last.eq_of_pure.symm, ?_⟩
      intro site path
      rcases path.cases_head with rfl | ⟨child, step, path⟩
      · exact unmatched
      · obtain ⟨dialect, holds⟩ := EachSubschema.of_step here each step
        obtain ⟨_, place, inner⟩ := child
        cases dialect
        exact holds site path
    | null | bool | number | string | array =>
      refine ⟨later.eq_of_pure.symm, ?_⟩
      intro site path
      rcases path.cases_head with rfl | ⟨child, step, path⟩
      · exact unmatched
      · cases step

theorem runPasses_context {rules : List Rule} {walker : Walker} {resolver : Resolver}
    {dialect : String} {steps number applied : Nat} {document result : Json}
    (h : (runPasses rules walker resolver dialect steps number applied document).result =
      .ok result) :
    ∃ context, Context.of resolver dialect .root document = .ok context := by
  rcases steps with _ | steps
  · cases h
  obtain ⟨_, visited, _⟩ := Traced.bind_result_ok h
  rcases steps with _ | steps
  · cases visited
  obtain ⟨_, settled, _⟩ := Traced.bind_result_ok visited
  rcases steps with _ | steps
  · cases settled
  obtain ⟨context, here, _⟩ := Traced.ofExcept_bind_ok settled
  exact ⟨context, here⟩

theorem runPasses_cases {dialect : String} {steps number applied : Nat} {document result : Json}
    (h : (runPasses rules walker resolver dialect steps number applied document).result =
      .ok result) :
    ∃ fewer passed, steps = fewer + 1 ∧
      (visit rules walker resolver fewer dialect .root document).result = .ok passed ∧
        ((∃ more, (runPasses rules walker resolver dialect fewer (number + 1) more passed).result =
          .ok result) ∨ passed = document ∧ result = document ∧
            (visit rules walker resolver fewer dialect .root document).applications = 0) := by
  rcases steps with _ | steps
  · cases h
  obtain ⟨passed, here, later⟩ := Traced.bind_result_ok h
  obtain ⟨_, _, later⟩ := Traced.bind_result_ok later
  refine ⟨steps, passed, rfl, here, ?_⟩
  split at later
  · exact .inl ⟨_, later⟩
  · rename_i unchanged
    rw [decide_eq_true_iff, Nat.not_lt, Nat.le_zero] at unchanged
    have same := (visit_idle ⟨here, unchanged⟩).1
    cases later
    exact .inr ⟨same, same, unchanged⟩

/-- The last pass of a run applies no rule. -/
theorem runPasses_last {dialect : String} {steps number applied : Nat} {document result : Json}
    (h : (runPasses rules walker resolver dialect steps number applied document).result =
      .ok result) :
    ∃ fewer < steps, (visit rules walker resolver fewer dialect .root result).Idle result := by
  induction steps generalizing number applied document with
  | zero => cases h
  | succ steps ih =>
    obtain ⟨fewer, passed, same, first, later⟩ := runPasses_cases h
    cases same
    rcases later with ⟨_, later⟩ | ⟨rfl, rfl, quiet⟩
    · obtain ⟨fewer, less, last⟩ := ih later
      exact ⟨fewer, by omega, last⟩
    · exact ⟨steps, by omega, first, quiet⟩

end Fresh

/-- What a run gives is a fixed point: no rule matches any subschema that can be reached from the
    root, in the context that the resolver gives for it anew. -/
theorem saturate_unmatched (rules : List Rule) (walker : Walker) (resolver : Resolver)
    (default : Option String) (document : Json) (limit : Nat) (result : Json)
    (h : (saturate rules resolver default document limit walker).result = .ok result) :
    ∃ dialect, Dialect.ofDocument document default = .ok dialect ∧ ∀ site,
      Relation.ReflTransGen (Subschema walker resolver) ⟨dialect, .root, result⟩ site →
        site.Unmatched rules resolver := by
  rw [saturate_eq] at h
  obtain ⟨dialect, root, h⟩ := Traced.ofExcept_bind_ok h
  obtain ⟨_, _, last⟩ := Fresh.runPasses_last h
  exact ⟨dialect, root, (Fresh.visit_idle last).2⟩

theorem saturate_unmatched_shut :
    let shut : Rule :=
      { name := "shut", condition := fun node _ => node == .bool true,
        transform := fun _ => .bool false }
    let open_door := Json.object [("not", .object [("anyOf", .array [.bool true, .null])])]
    let shut_door := Json.object [("not", .object [("anyOf", .array [.bool false, .null])])]
    (saturate [shut] Dialect.official (some Dialect.draft202012) open_door 9).result =
        .ok shut_door ∧
      ∃ dialect, Dialect.ofDocument open_door (some Dialect.draft202012) = .ok dialect ∧ ∀ site,
        Relation.ReflTransGen (Subschema Keyword.find? Dialect.official)
            ⟨dialect, .root, shut_door⟩ site →
          site.Unmatched [shut] Dialect.official :=
  ⟨rfl, saturate_unmatched _ _ _ _ _ 9 _ rfl⟩

end SchemaPack
