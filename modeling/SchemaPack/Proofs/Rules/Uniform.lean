import SchemaPack.Proofs.Rules.Fresh

namespace SchemaPack

/-- A relation between computations that two visits are in if all that they consist of is. The
    first visit may come to the end of its steps before the second. -/
structure Traced.Uniform (resolver : Resolver) where
  holds : {α : Type} → Traced α → Traced α → Prop
  pure : ∀ {α : Type} (a : α), holds (Pure.pure a) (Pure.pure a)
  bind : ∀ {α β : Type} {x y : Traced α} {f g : α → Traced β},
    holds x y → (∀ a, holds (f a) (g a)) → holds (x >>= f) (y >>= g)
  short : ∀ {α : Type} (y : Traced α), holds (.stop .outOfSteps) y
  crash : ∀ {α : Type}, holds (.stop .crashed : Traced α) (.stop .crashed)
  context : ∀ inherited pointer node,
    holds (.ofExcept (Context.of resolver inherited pointer node))
      (.ofExcept (Context.of resolver inherited pointer node))
  examined : ∀ context node applied,
    holds (.emit (.examined context node applied)) (.emit (.examined context node applied))

namespace Fresh

variable {resolver : Resolver} (relation : Traced.Uniform resolver) {rules : List Rule}
  {walker : Walker} {inherited : String} {pointer : Pointer}

theorem settle_uniform {steps more : Nat} {node : Json} (le : steps ≤ more) :
    relation.holds (settle rules resolver inherited pointer steps node)
      (settle rules resolver inherited pointer more node) := by
  induction steps generalizing more node with
  | zero => exact relation.short _
  | succ steps ih =>
    obtain ⟨more, rfl⟩ : ∃ fewer, more = fewer + 1 := ⟨more - 1, by omega⟩
    rw [settle, settle]
    refine relation.bind (relation.context _ _ _) fun context => ?_
    refine relation.bind ?_ fun applied => relation.bind (relation.examined _ _ _) fun _ => ?_
    · rcases Rule.first_cases node context rules with crash | same
      · rw [crash]
        exact relation.crash
      · rw [same]
        exact relation.pure _
    · cases applied with
      | some rule => exact ih (by omega)
      | none => exact relation.pure _

theorem visitMembers_uniform {one other : String → Json → Traced Json}
    (each : ∀ name value, relation.holds (one name value) (other name value)) (members : Members) :
    relation.holds (visitMembers one members) (visitMembers other members) := by
  induction members with
  | nil => exact relation.pure _
  | cons entry rest ih =>
    exact relation.bind (each _ _) fun _ => relation.bind ih fun _ => relation.pure _

section Children

variable {one other : Pointer → Json → Traced Json}
  (each : ∀ pointer node, relation.holds (one pointer node) (other pointer node))

include each

theorem visitItems_uniform (index : Nat) (items : List Json) :
    relation.holds (visitItems one pointer index items) (visitItems other pointer index items) := by
  induction items generalizing index with
  | nil => exact relation.pure _
  | cons item rest ih =>
    exact relation.bind (each _ _) fun _ => relation.bind (ih _) fun _ => relation.pure _

theorem visitKeyword_uniform (vocabularies : Vocabularies) (name : String) (value : Json) :
    relation.holds (visitKeyword walker one vocabularies pointer name value)
      (visitKeyword walker other vocabularies pointer name value) := by
  unfold visitKeyword
  split
  · exact each _ _
  · exact relation.bind (visitItems_uniform relation each _ _) fun _ => relation.pure _
  · rw [visitEntries_eq, visitEntries_eq]
    refine relation.bind (visitMembers_uniform relation ?_ _) fun _ => relation.pure _
    exact fun _ => each _
  · exact relation.pure _

end Children

theorem visit_uniform {steps more : Nat} {node : Json} (le : steps ≤ more) :
    relation.holds (visit rules walker resolver steps inherited pointer node)
      (visit rules walker resolver more inherited pointer node) := by
  induction steps generalizing more inherited pointer node with
  | zero => exact relation.short _
  | succ steps ih =>
    obtain ⟨more, rfl⟩ : ∃ fewer, more = fewer + 1 := ⟨more - 1, by omega⟩
    rw [visit, visit]
    refine relation.bind (settle_uniform relation (by omega)) ?_
    rintro ⟨context, settled⟩
    cases settled with
    | object members =>
      dsimp only
      rw [visitKeywords_eq, visitKeywords_eq]
      refine relation.bind (visitMembers_uniform relation ?_ members) fun _ => relation.pure _
      exact visitKeyword_uniform relation (fun pointer node => ih (by omega)) _
    | null | bool | number | string | array => exact relation.pure _

end Fresh

end SchemaPack
