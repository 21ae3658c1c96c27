import Mathlib.Data.List.Forall2
import SchemaPack.Proofs.Json.Members
import SchemaPack.Proofs.Rules.FixedPoint
import SchemaPack.Proofs.Rules.Invariant

namespace SchemaPack

def Traced.Gives {α : Type} (x : Traced α) (events : List Event) (a : α) : Prop :=
  x.result = .ok a ∧ x.events ⊆ events

theorem Traced.Gives.of_result {α : Type} {x : Traced α} {a : α} (h : x.result = .ok a) :
    x.Gives x.events a :=
  ⟨h, List.Subset.refl _⟩

theorem Traced.Gives.of_bind {α β : Type} {x : Traced α} {f : α → Traced β} {events : List Event}
    {b : β} (h : (x >>= f).Gives events b) : ∃ a, x.Gives events a ∧ (f a).Gives events b := by
  obtain ⟨a, first, second⟩ := bind_result_ok h.1
  have inside := h.2
  rw [bind_ok first, List.append_subset] at inside
  exact ⟨a, ⟨first, inside.1⟩, second, inside.2⟩

theorem Traced.Gives.eq_of_pure {α : Type} {a b : α} {events : List Event}
    (h : (pure a : Traced α).Gives events b) : a = b :=
  Except.ok.inj h.1

theorem exists_of_forall₂ {α β : Type} {R : α → β → Prop} {xs : List α} {ys : List β}
    (related : List.Forall₂ R xs ys) {y : β} (listed : y ∈ ys) : ∃ x ∈ xs, R x y := by
  induction related with
  | nil => cases listed
  | @cons x _ _ _ here _ ih =>
    rcases List.mem_cons.mp listed with rfl | later
    · exact ⟨x, List.mem_cons_self, here⟩
    · obtain ⟨x, before, holds⟩ := ih later
      exact ⟨x, List.mem_cons_of_mem _ before, holds⟩

theorem Members.get?_of_forall₂ (R : String → Json → Json → Prop) {entries results : Members}
    (related : List.Forall₂ (fun entry result => entry.1 = result.1 ∧ R entry.1 entry.2 result.2)
      entries results)
    {name : String} {value : Json} (found : entries.get? name = some value) :
    ∃ result, results.get? name = some result ∧ R name value result := by
  induction related with
  | nil => cases found
  | @cons entry result _ _ same _ ih =>
    rw [Members.get?_cons] at found ⊢
    rw [← same.1]
    split at found
    · rename_i here
      cases found
      exact ⟨result.2, if_pos here, here ▸ same.2⟩
    · rename_i other
      rw [if_neg other]
      exact ih found

namespace Fresh

variable {rules : List Rule} {walker : Walker} {resolver : Resolver} {events : List Event}

theorem settle_gives (property : Json → Prop) {inherited : String} {pointer : Pointer}
    (apply : ∀ rule ∈ rules, ∀ node context,
      Context.of resolver inherited pointer node = .ok context →
        rule.condition node context = true → .examined context node (some rule) ∈ events →
          property node → property (rule.transform node))
    {steps : Nat} {node settled : Json} {context : Context}
    (h : (settle rules resolver inherited pointer steps node).Gives events (context, settled))
    (holds : property node) :
    Context.of resolver inherited pointer settled = .ok context ∧ property settled := by
  induction steps generalizing node with
  | zero => cases h.1
  | succ steps ih =>
    rw [settle] at h
    obtain ⟨found, ⟨here, _⟩, later⟩ := Traced.Gives.of_bind h
    obtain ⟨applied, ⟨first, _⟩, later⟩ := Traced.Gives.of_bind later
    obtain ⟨_, ⟨_, examined⟩, last⟩ := Traced.Gives.of_bind later
    have here := Traced.ofExcept_result_ok.mp here
    cases applied with
    | some rule =>
      have matched := (Rule.first_result_ok first).symm
      have listed := List.mem_of_find?_eq_some matched
      have condition := List.find?_some matched
      have applied := examined List.mem_cons_self
      exact ih last (apply rule listed node found here condition applied holds)
    | none =>
      cases last.eq_of_pure
      exact ⟨here, holds⟩

theorem visitMembers_gives {visit : String → Json → Traced Json} {members results : Members}
    (h : (visitMembers visit members).Gives events results) :
    List.Forall₂ (fun entry result => entry.1 = result.1 ∧
      (visit entry.1 entry.2).Gives events result.2) members results := by
  induction members generalizing results with
  | nil =>
    cases h.eq_of_pure
    exact .nil
  | cons entry rest ih =>
    obtain ⟨result, first, later⟩ := Traced.Gives.of_bind h
    obtain ⟨others, second, last⟩ := Traced.Gives.of_bind later
    cases last.eq_of_pure
    exact .cons ⟨rfl, first⟩ (ih second)

section Children

variable {visit : Pointer → Json → Traced Json}

theorem visitItems_gives {pointer : Pointer} {start : Nat} {items results : List Json}
    (h : (visitItems visit pointer start items).Gives events results) :
    results.length = items.length ∧ ∀ index item result, items[index]? = some item →
      results[index]? = some result →
        (visit (pointer.item (start + index)) item).Gives events result := by
  induction items generalizing start results with
  | nil =>
    cases h.eq_of_pure
    exact ⟨rfl, nofun⟩
  | cons item rest ih =>
    rw [visitItems] at h
    obtain ⟨result, first, later⟩ := Traced.Gives.of_bind h
    obtain ⟨others, second, last⟩ := Traced.Gives.of_bind later
    cases last.eq_of_pure
    obtain ⟨length, each⟩ := ih second
    refine ⟨by simp [length], ?_⟩
    intro index item result from_item to_result
    cases index with
    | zero =>
      cases from_item
      cases to_result
      exact first
    | succ index =>
      have moved := each index item result from_item to_result
      rwa [show start + 1 + index = start + (index + 1) by omega] at moved

theorem visitEntries_gives {pointer : Pointer} {entries results : List (String × Json)}
    (h : (visitEntries visit pointer entries).Gives events results) :
    List.Forall₂ (fun entry result => entry.1 = result.1 ∧
      (visit (pointer.child entry.1) entry.2).Gives events result.2) entries results := by
  rw [visitEntries_eq] at h
  exact visitMembers_gives h

theorem visitKeyword_gives {vocabularies : Vocabularies} {pointer : Pointer} {name : String}
    {value result : Json}
    (h : (visitKeyword walker visit vocabularies pointer name value).Gives events result) :
    ((walker vocabularies name).map Keyword.role = some .subschema ∧
        (visit (pointer.child name) value).Gives events result) ∨
      (∃ items results, (walker vocabularies name).map Keyword.role = some .subschemaList ∧
        value = .array items ∧ result = .array results ∧
          (visitItems visit (pointer.child name) 0 items).Gives events results) ∨
      (∃ members results, (walker vocabularies name).map Keyword.role = some .subschemaMap ∧
        value = .object members ∧ result = .object results ∧
          (visitEntries visit (pointer.child name) members).Gives events results) ∨
      result = value ∧ EachSubschema walker (fun _ _ => False) vocabularies pointer name value := by
  unfold visitKeyword at h
  unfold EachSubschema
  generalize (walker vocabularies name).map Keyword.role = role at h ⊢
  rcases role with _ | role
  · exact .inr (.inr (.inr ⟨h.eq_of_pure.symm, trivial⟩))
  · cases role with
    | subschema => exact .inl ⟨rfl, h⟩
    | subschemaList =>
      cases value with
      | array items =>
        obtain ⟨results, first, last⟩ := Traced.Gives.of_bind h
        exact .inr (.inl ⟨items, results, rfl, rfl, last.eq_of_pure.symm, first⟩)
      | null | bool | number | string | object =>
        exact .inr (.inr (.inr ⟨h.eq_of_pure.symm, trivial⟩))
    | subschemaMap =>
      cases value with
      | object members =>
        obtain ⟨results, first, last⟩ := Traced.Gives.of_bind h
        exact .inr (.inr (.inl ⟨members, results, rfl, rfl, last.eq_of_pure.symm, first⟩))
      | null | bool | number | string | array =>
        exact .inr (.inr (.inr ⟨h.eq_of_pure.symm, trivial⟩))
    | identity | reference | comment | assertion | descriptive =>
      exact .inr (.inr (.inr ⟨h.eq_of_pure.symm, trivial⟩))

section Roles

variable {vocabularies : Vocabularies} {pointer : Pointer} {name : String}

theorem visitKeyword_value {value result : Json}
    (h : (visitKeyword walker visit vocabularies pointer name value).Gives events result)
    (role : (walker vocabularies name).map Keyword.role = some .subschema) :
    (visit (pointer.child name) value).Gives events result := by
  rcases visitKeyword_gives h with ⟨_, given⟩ | ⟨_, _, other, _⟩ | ⟨_, _, other, _⟩ | ⟨_, none⟩
  · exact given
  · cases role.symm.trans other
  · cases role.symm.trans other
  · simp [EachSubschema, role] at none

theorem visitKeyword_elements {value : Json} {results : List Json}
    (h : (visitKeyword walker visit vocabularies pointer name value).Gives events (.array results))
    (role : (walker vocabularies name).map Keyword.role = some .subschemaList) :
    ∃ items, value = .array items ∧ ∀ index result, results[index]? = some result →
      ∃ item, items[index]? = some item ∧
        (visit ((pointer.child name).item index) item).Gives events result := by
  rcases visitKeyword_gives h with ⟨other, _⟩ | ⟨items, _, _, rfl, same, given⟩ |
    ⟨_, _, other, _⟩ | ⟨rfl, none⟩
  · cases role.symm.trans other
  · cases same
    refine ⟨items, rfl, ?_⟩
    intro index result to_result
    obtain ⟨length, each⟩ := visitItems_gives given
    have bound := (List.getElem?_eq_some_iff.mp to_result).1
    have from_item := List.getElem?_eq_getElem (length ▸ bound : index < items.length)
    have visited := each index _ result from_item to_result
    rw [Nat.zero_add] at visited
    exact ⟨_, from_item, visited⟩
  · cases role.symm.trans other
  · refine ⟨results, rfl, ?_⟩
    intro index result item
    simp only [EachSubschema, role] at none
    exact (none index result item).elim

theorem visitKeyword_members {value : Json} {results : Members}
    (h : (visitKeyword walker visit vocabularies pointer name value).Gives events
      (.object results))
    (role : (walker vocabularies name).map Keyword.role = some .subschemaMap) :
    ∃ entries, value = .object entries ∧ ∀ key result, (key, result) ∈ results →
      ∃ node, (key, node) ∈ entries ∧
        (visit ((pointer.child name).child key) node).Gives events result := by
  rcases visitKeyword_gives h with ⟨other, _⟩ | ⟨_, _, other, _⟩ |
    ⟨entries, _, _, rfl, same, given⟩ | ⟨rfl, none⟩
  · cases role.symm.trans other
  · cases role.symm.trans other
  · cases same
    refine ⟨entries, rfl, ?_⟩
    intro key result inner
    obtain ⟨⟨key, node⟩, listed, rfl, visited⟩ :=
      exists_of_forall₂ (visitEntries_gives given) inner
    exact ⟨node, listed, visited⟩
  · refine ⟨results, rfl, ?_⟩
    intro key result inner
    simp only [EachSubschema, role] at none
    exact (none key result inner).elim

end Roles

theorem visitKeywords_gives {vocabularies : Vocabularies} {pointer : Pointer}
    {entries results : List (String × Json)}
    (h : (visitKeywords walker visit vocabularies pointer entries).Gives events results) :
    List.Forall₂ (fun entry result => entry.1 = result.1 ∧
      (visitKeyword walker visit vocabularies pointer entry.1 entry.2).Gives events result.2)
        entries results := by
  rw [visitKeywords_eq] at h
  exact visitMembers_gives h

end Children

theorem visit_gives {steps : Nat} {inherited : String} {pointer : Pointer} {node result : Json}
    (h : (visit rules walker resolver steps inherited pointer node).Gives events result) :
    ∃ fewer context settled, steps = fewer + 1 ∧
      (settle rules resolver inherited pointer fewer node).Gives events (context, settled) ∧
        ((∃ members results, settled = .object members ∧ result = .object results ∧
          (visitKeywords walker (visit rules walker resolver fewer context.dialect)
            context.vocabularies pointer members).Gives events results) ∨
          settled.isObject = false ∧ result = settled) := by
  cases steps with
  | zero => cases h.1
  | succ steps =>
    rw [visit] at h
    obtain ⟨⟨context, settled⟩, first, later⟩ := Traced.Gives.of_bind h
    refine ⟨steps, context, settled, rfl, first, ?_⟩
    cases settled with
    | object members =>
      obtain ⟨results, second, last⟩ := Traced.Gives.of_bind later
      exact .inl ⟨members, results, rfl, last.eq_of_pure.symm, second⟩
    | null | bool | number | string | array => exact .inr ⟨rfl, later.eq_of_pure.symm⟩

/-- The subschemas of what a visit gives are what visits gave of those that it had settled. -/
theorem visit_subschema {steps : Nat} {inherited : String} {pointer : Pointer}
    {node result : Json}
    (h : (visit rules Keyword.find? resolver steps inherited pointer node).Gives events result) :
    ∃ fewer context settled, steps = fewer + 1 ∧
      (settle rules resolver inherited pointer fewer node).Gives events (context, settled) ∧
        (result = settled ∨ ∃ members results, settled = .object members ∧
          result = .object results ∧ Alike context.vocabularies members results) ∧
          ∀ child, Subschema Keyword.find? resolver ⟨inherited, pointer, result⟩ child →
            ∃ before, Subschema Keyword.find? resolver ⟨inherited, pointer, settled⟩
                ⟨child.inherited, child.pointer, before⟩ ∧
              (visit rules Keyword.find? resolver fewer child.inherited child.pointer before).Gives
                events child.node := by
  obtain ⟨fewer, context, settled, same, first, later⟩ := visit_gives h
  refine ⟨fewer, context, settled, same, first, ?_⟩
  have here := (settle_unmatched first.1).1
  rcases later with ⟨members, results, rfl, rfl, second⟩ | ⟨plain, rfl⟩
  · have alike := visitKeywords_alike second.1
    have visited := visitKeywords_gives second
    refine ⟨.inr ⟨members, results, rfl, rfl, alike⟩, ?_⟩
    intro child step
    have again := Context.of_alike here alike
    cases step with
    | value there entry role =>
      cases again.symm.trans there
      obtain ⟨⟨name, value⟩, listed, rfl, given⟩ := exists_of_forall₂ visited entry
      exact ⟨value, .value here listed role, visitKeyword_value given role⟩
    | element there entry role item =>
      cases again.symm.trans there
      obtain ⟨⟨name, value⟩, listed, rfl, given⟩ := exists_of_forall₂ visited entry
      obtain ⟨items, rfl, each⟩ := visitKeyword_elements given role
      obtain ⟨before, from_item, given⟩ := each _ _ item
      exact ⟨before, .element here listed role from_item, given⟩
    | member there entry role inner =>
      cases again.symm.trans there
      obtain ⟨⟨name, value⟩, listed, rfl, given⟩ := exists_of_forall₂ visited entry
      obtain ⟨entries, rfl, each⟩ := visitKeyword_members given role
      obtain ⟨before, from_entry, given⟩ := each _ _ inner
      exact ⟨before, .member here listed role from_entry, given⟩
  · refine ⟨.inl rfl, ?_⟩
    intro child step
    cases step <;> cases plain

theorem runPasses_gives (property : Json → Prop) {dialect : String}
    (pass : ∀ steps document passed,
      (visit rules walker resolver steps dialect .root document).Gives events passed →
        property document → property passed)
    {steps number applied : Nat} {document result : Json}
    (h : (runPasses rules walker resolver dialect steps number applied document).Gives events
      result)
    (holds : property document) : property result := by
  induction steps generalizing number applied document with
  | zero => cases h.1
  | succ steps ih =>
    rw [runPasses] at h
    obtain ⟨passed, first, later⟩ := Traced.Gives.of_bind h
    obtain ⟨_, _, last⟩ := Traced.Gives.of_bind later
    have kept := pass _ _ _ first holds
    split at last
    · exact ih last kept
    · obtain ⟨_, _, last⟩ := Traced.Gives.of_bind last
      cases last.eq_of_pure
      exact kept

end Fresh

end SchemaPack
