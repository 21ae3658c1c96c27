import SchemaPack.Canonical
import SchemaPack.Proofs.Json.Order
import SchemaPack.Proofs.Rules.Traced

namespace SchemaPack

namespace Collapse

variable {node : Json} {context : Context}

/-- Bounds pin a number if it lies within both of them and nothing else tells about it. -/
structure Pinned (node : Json) (value maximum : Number) : Prop where
  alone : node.containsAny ["const", "enum", "exclusiveMinimum", "exclusiveMaximum"] = false
  numeric : node.hasType .integer = true ∨ node.hasType .number = true
  lower : node.numberAt? "minimum" = some value
  upper : node.numberAt? "maximum" = some maximum
  equal : value.compare maximum = .eq
  integral : node.hasType .integer = true → value.isIntegral = true

theorem exists_pinned {value : Number} (pinned : pinned? node = some value) :
    ∃ maximum, Pinned node value maximum := by
  unfold pinned? at pinned
  split at pinned
  · rename_i open_
    rw [Bool.and_eq_true, Bool.or_eq_true, Bool.not_eq_true'] at open_
    obtain ⟨minimum, lower, pinned⟩ := Option.bind_eq_some_iff.mp pinned
    obtain ⟨maximum, upper, pinned⟩ := Option.bind_eq_some_iff.mp pinned
    split at pinned
    · rename_i within
      cases pinned
      rw [Bool.and_eq_true, beq_iff_eq, Bool.or_eq_true, Bool.not_eq_true'] at within
      refine ⟨maximum, open_.1, open_.2, lower, upper, within.1, fun integer => ?_⟩
      exact within.2.resolve_left (by rw [integer]; exact Bool.noConfusion)
    · cases pinned
  · cases pinned

theorem pinned_of_condition (condition : equalBounds.condition node context = true) :
    ∃ value maximum, Pinned node value maximum := by
  obtain ⟨value, pinned, _⟩ := (Option.any_eq_true _ _).mp (Bool.and_eq_true_iff.mp condition).2
  exact ⟨value, exists_pinned pinned⟩

theorem equalBounds_transform {value maximum : Number} (pinned : Pinned node value maximum) :
    equalBounds.transform node =
      (node.eraseAll ["type", "minimum", "maximum", "multipleOf"]).insert "const"
        (.number value) := by
  simp only [equalBounds, pinned.lower]

theorem repeated_of_condition {name keyword vocabulary : String}
    (condition : (duplicates name keyword vocabulary).condition node context = true) :
    ∃ values, node.arrayAt? keyword = some values ∧ Json.hasDuplicates values = some true := by
  obtain ⟨values, found, repeated⟩ :=
    (Option.any_eq_true _ _).mp (Bool.and_eq_true_iff.mp condition).2
  exact ⟨values, found, beq_iff_eq.mp repeated⟩

theorem duplicates_transform (name keyword vocabulary : String) (node : Json) :
    (duplicates name keyword vocabulary).transform node = node ∨
      ∃ values kept, node.arrayAt? keyword = some values ∧ Json.sortUnique values = some kept ∧
        (duplicates name keyword vocabulary).transform node =
          node.insert keyword (.array kept) := by
  simp only [duplicates]
  split
  · rename_i kept ran
    obtain ⟨values, found, ran⟩ := Option.bind_eq_some_iff.mp ran
    exact .inr ⟨values, kept, found, ran, rfl⟩
  · exact .inl rfl

theorem duplicates_transform_eq {name keyword vocabulary : String} {values kept : List Json}
    (found : node.arrayAt? keyword = some values) (ran : Json.sortUnique values = some kept) :
    (duplicates name keyword vocabulary).transform node = node.insert keyword (.array kept) := by
  simp only [duplicates, found, Option.bind_some, ran]

def hazardous : List Rule :=
  [equalBounds, requiredCount, duplicateAllOf, duplicateAnyOf, duplicateEnum, duplicateRequired]

end Collapse

theorem canonicalRules_safe : ∀ rule ∈ canonicalRules, rule ∈ Collapse.hazardous ∨ rule.Safe := by
  intro rule listed
  simp only [canonicalRules, List.mem_append] at listed
  rcases listed with (((listed | listed) | listed) | listed) | listed
  · revert rule
    simp only [Redundancy.rules, List.forall_mem_cons]
    refine ⟨?_, ?_, ?_, ?_, ?_, ?_, ?_, ?_, ?_, ?_, ?_, ?_, ?_, ?_, nofun⟩ <;>
      exact .inr fun _ _ => rfl
  · revert rule
    simp only [Spelling.rules, List.forall_mem_cons]
    refine ⟨?_, ?_, ?_, ?_, ?_, ?_, ?_, nofun⟩ <;> exact .inr fun _ _ => rfl
  · revert rule
    simp only [Collapse.rules, List.forall_mem_cons]
    refine ⟨?_, ?_, ?_, ?_, ?_, ?_, ?_, ?_, ?_, ?_, ?_, ?_, ?_, ?_, nofun⟩ <;>
      first
      | exact .inr fun _ _ => rfl
      | exact .inl (by simp [Collapse.hazardous])
  · obtain ⟨_, _, listed⟩ := List.mem_flatMap.mp listed
    obtain ⟨_, _, rfl⟩ := List.mem_map.mp listed
    exact .inr fun _ _ => rfl
  · revert rule
    simp only [Defaults.rules, List.forall_mem_cons]
    refine ⟨?_, ?_, ?_, ?_, ?_, ?_, ?_, nofun⟩ <;> exact .inr fun _ _ => rfl

end SchemaPack
