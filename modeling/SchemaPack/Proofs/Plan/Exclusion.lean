import SchemaPack.Proofs.Plan.Soundness

namespace SchemaPack

/-- Two rules that never match one node together. -/
def Rule.Excludes (rule other : Rule) : Prop :=
  ∀ node context, ¬(rule.condition node context = true ∧ other.condition node context = true)

theorem length_filter_le_one {rules : List Rule} (exclusive : rules.Pairwise Rule.Excludes)
    (node : Json) (context : Context) :
    (rules.filter (·.condition node context)).length ≤ 1 := by
  induction exclusive with
  | nil => simp
  | @cons rule rest apart _ ih =>
    by_cases matched : rule.condition node context = true
    · have others : rest.filter (·.condition node context) = [] := by
        rw [List.filter_eq_nil_iff]
        intro other listed both
        exact apart other listed node context ⟨matched, both⟩
      simp [matched, others]
    · simpa [matched] using ih

theorem find?_eq_of_excludes {rules : List Rule} (exclusive : rules.Pairwise Rule.Excludes)
    {rule : Rule} (listed : rule ∈ rules) {node : Json} {context : Context}
    (condition : rule.condition node context = true) :
    rules.find? (·.condition node context) = some rule := by
  have alone := length_filter_le_one exclusive node context
  have among : rule ∈ rules.filter (·.condition node context) :=
    List.mem_filter.mpr ⟨listed, condition⟩
  rw [← List.head?_filter]
  cases filtered : rules.filter (·.condition node context) with
  | nil =>
    rw [filtered] at among
    cases among
  | cons first rest =>
    rw [filtered] at alone among
    have single : rest = [] := by simpa using alone
    rw [single, List.mem_singleton] at among
    rw [List.head?_cons, among]

namespace Choices

theorem not_any_count? {node : Json} {context : Context} {fits suits : Nat → Bool}
    (apart : ∀ n, fits n = true → suits n = false) :
    ¬((count? node context).any fits = true ∧ (count? node context).any suits = true) := by
  rintro ⟨fitting, suiting⟩
  obtain ⟨n, counted, fitting⟩ := (Option.any_eq_true _ _).mp fitting
  simp [counted, apart n fitting] at suiting

theorem single_condition (node : Json) (context : Context) :
    single.condition node context = (count? node context).any (· == 1) := by
  show (count? node context == some 1) = _
  cases count? node context <;> rfl

theorem fitsByte_of_one {n : Nat} (one : (n == 1) = true) : fitsByte n = false := by
  rw [beq_iff_eq.mp one]
  rfl

theorem not_large_of_one {n : Nat} (one : (n == 1) = true) : decide (byteChoices < n) = false := by
  rw [beq_iff_eq.mp one]
  rfl

theorem not_large_of_fitsByte {n : Nat} (fits : fitsByte n = true) :
    decide (byteChoices < n) = false := by
  simp only [fitsByte, Bool.and_eq_true, decide_eq_true_eq] at fits
  simp [fits.2]

theorem rules_exclude : rules.Pairwise Rule.Excludes := by
  simp only [rules, List.pairwise_cons, List.forall_mem_cons, List.not_mem_nil, false_imp_iff,
    implies_true, and_true, List.Pairwise.nil, Rule.Excludes, single_condition]
  simp only [byteAtRoot, byte, large, Bool.and_eq_true, Bool.not_eq_true']
  refine ⟨⟨?_, ?_, ?_⟩, ⟨?_, ?_⟩, ?_⟩ <;> rintro node context ⟨first, second⟩
  · exact not_any_count? (fun _ => fitsByte_of_one) ⟨first, second.2⟩
  · exact not_any_count? (fun _ => fitsByte_of_one) ⟨first, second.2⟩
  · exact not_any_count? (fun _ => not_large_of_one) ⟨first, second⟩
  · rw [first.1] at second
    cases second.1
  · exact not_any_count? (fun _ => not_large_of_fitsByte) ⟨first.2, second⟩
  · exact not_any_count? (fun _ => not_large_of_fitsByte) ⟨first.2, second⟩

theorem contains_enum {node : Json} {context : Context} {rule : Rule} (listed : rule ∈ rules)
    (condition : rule.condition node context = true) : node.contains "enum" = true := by
  have counted : ∃ fits, (count? node context).any fits = true := by
    simp only [rules, List.mem_cons, List.not_mem_nil, or_false] at listed
    rcases listed with rfl | rfl | rfl | rfl
    · exact ⟨_, (single_condition node context).symm.trans condition⟩
    · exact ⟨_, ((Bool.and_eq_true _ _).mp condition).2⟩
    · exact ⟨_, ((Bool.and_eq_true _ _).mp condition).2⟩
    · exact ⟨_, condition⟩
  obtain ⟨_, counted⟩ := counted
  obtain ⟨_, choices, found, _⟩ := exists_of_any_count? counted
  rw [Json.contains_eq, Json.get?_of_arrayAt? found, Option.isSome_some]

end Choices

namespace Integers

theorem exists_domain {name : String} {kind : RangeKind} {multiplied : Bool} {node : Json}
    {context : Context} (condition : (rule name kind multiplied).condition node context = true) :
    ∃ domain, IntegerDomain.of? node multiplied = some domain ∧ domain.rangeKind = kind := by
  obtain ⟨domain, given, ranged⟩ :=
    (Option.any_eq_true _ _).mp ((Bool.and_eq_true _ _).mp condition).2
  exact ⟨domain, given, of_decide_eq_true ranged⟩

theorem multiplied_eq {node : Json} {multiplied : Bool} {domain : IntegerDomain}
    (given : IntegerDomain.of? node multiplied = some domain) :
    multiplied = decide (Multiplier.of node ≠ .absent) := by
  obtain ⟨_, _, ⟨absent, rfl, _⟩ | ⟨integral, rfl⟩, _⟩ := IntegerDomain.of?_eq_some_iff.mp given
  · simp [absent]
  · simp [integral]

theorem rule_excludes {name other : String} {kind otherKind : RangeKind}
    {multiplied otherMultiplied : Bool}
    (apart : (kind, multiplied) ≠ (otherKind, otherMultiplied)) :
    (rule name kind multiplied).Excludes (rule other otherKind otherMultiplied) := by
  rintro node context ⟨first, second⟩
  obtain ⟨domain, given, rfl⟩ := exists_domain first
  obtain ⟨otherDomain, otherGiven, rfl⟩ := exists_domain second
  have same : multiplied = otherMultiplied :=
    (multiplied_eq given).trans (multiplied_eq otherGiven).symm
  subst same
  rw [given] at otherGiven
  cases otherGiven
  exact apart rfl

theorem rules_exclude : rules.Pairwise Rule.Excludes := by
  simp only [rules, List.pairwise_cons, List.forall_mem_cons, List.not_mem_nil, false_imp_iff,
    implies_true, and_true, List.Pairwise.nil]
  and_intros
  all_goals exact rule_excludes (by decide)

theorem typed_of_condition {node : Json} {context : Context} {rule : Rule}
    (listed : rule ∈ rules) (condition : rule.condition node context = true) :
    node.hasType .integer = true ∧ node.contains "enum" = false := by
  have each : ∀ rule ∈ rules, rule.condition node context = true →
      node.hasType .integer = true ∧ node.contains "enum" = false := by
    apply forall_rules
    intro name kind multiplied condition
    obtain ⟨domain, given, _⟩ := exists_domain condition
    obtain ⟨typed, unlisted, _⟩ := IntegerDomain.of?_eq_some_iff.mp given
    exact ⟨typed, unlisted⟩
  exact each rule listed condition

end Integers

theorem planRules_exclude : planRules.Pairwise Rule.Excludes := by
  rw [planRules, List.pairwise_append, List.pairwise_append, Reals.rules]
  refine ⟨⟨Choices.rules_exclude, Integers.rules_exclude, ?_⟩, List.pairwise_singleton _ _, ?_⟩
  · rintro rule listed other among node context ⟨first, second⟩
    have unlisted := (Integers.typed_of_condition among second).2
    rw [Choices.contains_enum listed first] at unlisted
    cases unlisted
  · rintro rule listed other among node context ⟨first, second⟩
    cases List.mem_singleton.mp among
    simp only [Reals.anyNumber, Bool.and_eq_true, Bool.not_eq_true'] at second
    rcases List.mem_append.mp listed with listed | listed
    · rw [Choices.contains_enum listed first] at second
      cases second.2
    · have integer := (Integers.typed_of_condition listed first).1
      rw [Json.hasType, beq_iff_eq] at integer second
      rw [integer] at second
      cases second.1.2

/-- An encoding is neither a schema of one type nor one that lists values, so none is planned for,
    in whatever dialect it is read. -/
theorem planRules_idle_document (encoding : Encoding) (context : Context) :
    ∀ rule ∈ planRules, rule.condition encoding.document context = false := by
  intro rule listed
  have unlisted : encoding.document.contains "enum" = false := rfl
  have untyped : ∀ type, encoding.document.hasType type = false := fun _ => rfl
  rw [← Bool.not_eq_true]
  intro condition
  rcases mem_planRules.mp listed with listed | listed | rfl
  · have present := Choices.contains_enum listed condition
    rw [unlisted] at present
    cases present
  · have typed := (Integers.typed_of_condition listed condition).1
    rw [untyped] at typed
    cases typed
  · simp [Reals.anyNumber, untyped] at condition

end SchemaPack
