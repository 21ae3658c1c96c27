import SchemaPack.Proofs.Canonical.Respect
import SchemaPack.Proofs.Rules.FixedPoint

namespace SchemaPack

open Json

/-- Nodes of a kind that differ as far as is tolerated if they are objects. -/
structure Akin (tolerance : Tolerance) (x y : Json) : Prop where
  object : x.isObject = y.isObject
  truth : (x == .bool true) = (y == .bool true)
  parallel : x.isObject = true → Parallel tolerance x y

/-- A tolerance for documents in which branches are merged at different times. -/
structure Tolerance.Lenient (D : Json → Json → Prop) (tolerance : Tolerance) : Prop
    extends tolerance.Fair D where
  dialect : ∀ a b, tolerance "$schema" a b → Option.Rel D a b
  branches : ∀ as bs, List.Forall₂ (Parallel tolerance) as bs →
    tolerance "anyOf" (some (.array as)) (some (.array bs))
  left : ∀ name ∈ ["allOf", "anyOf"], ∀ items kept b, sortUnique items = some kept →
    tolerance name (some (.array items)) b → tolerance name (some (.array kept)) b
  right : ∀ name ∈ ["allOf", "anyOf"], ∀ a items kept, sortUnique items = some kept →
    tolerance name a (some (.array items)) → tolerance name a (some (.array kept))

/-- A rule that drops a branch for another one. -/
def Rule.Merges (rule : Rule) : Prop :=
  rule = Collapse.duplicateAllOf ∨ rule = Collapse.duplicateAnyOf

theorem find?_eq_of_agree {α : Type} {p q : α → Bool} {skipped : α → Prop} {list : List α}
    (agree : ∀ a ∈ list, ¬skipped a → p a = q a)
    (left : ∀ a, list.find? p = some a → ¬skipped a)
    (right : ∀ a, list.find? q = some a → ¬skipped a) : list.find? p = list.find? q := by
  induction list with
  | nil => rfl
  | cons a rest ih =>
    rw [List.forall_mem_cons] at agree
    cases here : p a with
    | true =>
      have found := left a (List.find?_cons_of_pos here)
      rw [List.find?_cons_of_pos here, List.find?_cons_of_pos ((agree.1 found).symm.trans here)]
    | false =>
      cases there : q a with
      | true =>
        have found := right a (List.find?_cons_of_pos there)
        rw [agree.1 found, there] at here
        cases here
      | false =>
        have missed : ¬p a = true := by rw [here]; exact Bool.false_ne_true
        have also : ¬q a = true := by rw [there]; exact Bool.false_ne_true
        rw [List.find?_cons_of_neg missed, List.find?_cons_of_neg also] at *
        exact ih agree.2 left right

section

variable {D : Json → Json → Prop} {tolerance : Tolerance} (lenient : tolerance.Lenient D)
  (resemblance : Resemblance D) {x y : Json}

theorem Parallel.akin (parallel : Parallel tolerance x y) : Akin tolerance x y where
  object := parallel.left.trans parallel.right.symm
  truth := by rw [not_true_of_isObject parallel.left, not_true_of_isObject parallel.right]
  parallel := fun _ => parallel

include lenient

theorem Akin.declared? (akin : Akin tolerance x y) (resemblance : Resemblance D) :
    Dialect.declared? x = Dialect.declared? y := by
  cases kind : x.isObject with
  | true =>
    have strings := rel_bind (lenient.dialect _ _ ((akin.parallel kind).values "$schema"))
      (f := Json.string?) (S := Eq) fun a b same => by
        rw [resemblance.string? same]
        exact rel_refl fun _ _ => rfl
    exact eq_of_rel_eq strings
  | false =>
    rw [Dialect.declared?, Dialect.declared?, get?_eq_none_of_isObject kind,
      get?_eq_none_of_isObject (akin.object ▸ kind)]

include resemblance

theorem Akin.coincide (akin : Akin tolerance x y) :
    Coincide D Keyword.assertions (Keyword.assertions ++ Keyword.shown) x y := by
  cases kind : x.isObject with
  | true => exact (akin.parallel kind).coincide lenient.toFair resemblance
  | false =>
    have left := get?_eq_none_of_isObject kind
    have right := get?_eq_none_of_isObject (akin.object ▸ kind)
    have blank : ∀ (R : Json → Json → Prop) name, Matches R x y name := by
      intro R name
      rw [Matches, left, right]
      exact .none
    exact ⟨akin.object, akin.truth, fun _ _ => blank _ _, fun _ _ => blank _ _⟩

theorem Akin.context (akin : Akin tolerance x y) {resolver : Resolver} {inherited : String}
    {pointer place : Pointer} {context : Context}
    (here : Context.of resolver inherited pointer x = .ok context) :
    Context.of resolver inherited place y = .ok { context with pointer := place } := by
  rw [Context.of_eq_ok_iff] at here ⊢
  obtain ⟨base, known, dialect, _⟩ := here
  refine ⟨base, known, ?_, rfl⟩
  rw [dialect, Dialect.ofNode, Dialect.ofNode, akin.declared? lenient resemblance]

theorem Akin.transform (akin : Akin tolerance x y) {rule : Rule} (listed : rule ∈ canonicalRules)
    (plain : ¬rule.Merges) {context : Context} (applies : rule.condition x context = true) :
    Akin tolerance (rule.transform x) (rule.transform y) := by
  by_cases truth : rule = Spelling.trueSchema
  · subst truth
    exact Parallel.akin ⟨rfl, rfl, List.nodup_nil, List.nodup_nil, fun name => lenient.none name⟩
  · have parallel := akin.parallel (isObject_of_condition listed truth applies)
    by_cases split : rule = Spelling.typeUnion
    · subst split
      exact (Spelling.typeUnion_mirrors lenient.toFair resemblance lenient.branches x y context
        parallel applies).akin
    · have unmerged : rule.Plain :=
        ⟨split, fun all => plain (.inl all), fun any => plain (.inr any)⟩
      exact (canonicalRules_mirror lenient.toFair resemblance rule listed unmerged x y context
        parallel applies).akin

omit resemblance lenient in
theorem Rule.Merges.transform {rule : Rule} (merges : rule.Merges) (x : Json) :
    rule.transform x = x ∨ ∃ name ∈ ["allOf", "anyOf"], ∃ items kept,
      x.get? name = some (.array items) ∧ sortUnique items = some kept ∧
        rule.transform x = x.insert name (.array kept) := by
  have each : ∀ rule, ∀ keyword ∈ ["allOf", "anyOf"],
      (Collapse.duplicates rule keyword Vocabulary.applicator).transform x = x ∨
        ∃ name ∈ ["allOf", "anyOf"], ∃ items kept, x.get? name = some (.array items) ∧
          sortUnique items = some kept ∧
            (Collapse.duplicates rule keyword Vocabulary.applicator).transform x =
              x.insert name (.array kept) := by
    intro rule keyword branching
    rcases Collapse.duplicates_transform rule keyword Vocabulary.applicator x with
      same | ⟨items, kept, found, ran, merged⟩
    · exact .inl same
    · exact .inr ⟨keyword, branching, items, kept, get?_of_arrayAt? found, ran, merged⟩
  rcases merges with rfl | rfl
  · exact each _ "allOf" (by simp)
  · exact each _ "anyOf" (by simp)

omit resemblance in
theorem Akin.merge_left (akin : Akin tolerance x y) {rule : Rule} (merges : rule.Merges) :
    Akin tolerance (rule.transform x) y := by
  rcases merges.transform x with same | ⟨name, branching, items, kept, found, ran, merged⟩
  · rwa [same]
  have object := isObject_of_get? found
  have parallel := akin.parallel object
  rw [merged]
  apply Parallel.akin
  refine ⟨by rw [isObject_insert, object], parallel.right, nodup_insert parallel.names _ _,
    parallel.others, ?_⟩
  intro other
  by_cases same : name = other
  · subst same
    rw [get?_insert_self _ _ _ object]
    exact lenient.left name branching items kept _ ran (found ▸ parallel.values name)
  · rw [get?_insert_ne _ _ same]
    exact parallel.values other

omit resemblance in
theorem Akin.merge_right (akin : Akin tolerance x y) {rule : Rule} (merges : rule.Merges) :
    Akin tolerance x (rule.transform y) := by
  rcases merges.transform y with same | ⟨name, branching, items, kept, found, ran, merged⟩
  · rwa [same]
  have object := isObject_of_get? found
  have parallel := akin.parallel (akin.object.trans object)
  rw [merged]
  apply Parallel.akin
  refine ⟨parallel.left, by rw [isObject_insert, object], parallel.names,
    nodup_insert parallel.others _ _, ?_⟩
  intro other
  by_cases same : name = other
  · subst same
    rw [get?_insert_self _ _ _ object]
    exact lenient.right name branching _ items kept ran (found ▸ parallel.values name)
  · rw [get?_insert_ne _ _ same]
    exact parallel.values other

theorem Akin.condition_eq (akin : Akin tolerance x y) {rule : Rule}
    (listed : rule ∈ canonicalRules) (plain : ¬rule.Merges) {context : Context} {place : Pointer} :
    rule.condition x context = rule.condition y { context with pointer := place } := by
  obtain ⟨_, footprint⟩ := canonicalRules_footprint resemblance rule listed
    (fun all => plain (.inl all)) fun any => plain (.inr any)
  exact footprint.congr _ _ _ _ rfl (akin.coincide lenient resemblance)

theorem Akin.find?_eq (akin : Akin tolerance x y) {context : Context} {place : Pointer}
    (left : ∀ rule, canonicalRules.find? (·.condition x context) = some rule → ¬rule.Merges)
    (right : ∀ rule, canonicalRules.find? (·.condition y { context with pointer := place }) =
      some rule → ¬rule.Merges) :
    canonicalRules.find? (·.condition x context) =
      canonicalRules.find? (·.condition y { context with pointer := place }) :=
  find?_eq_of_agree (fun _ listed plain => akin.condition_eq lenient resemblance listed plain) left
    right

/-- Akin nodes settle as akin nodes, though branches may be merged at different times. -/
theorem settle_akin {resolver : Resolver} {inherited : String} {pointer place : Pointer}
    {steps fewer : Nat} {context other : Context} {settled result : Json}
    (akin : Akin tolerance x y)
    (first : (Fresh.settle canonicalRules resolver inherited pointer steps x).result =
      .ok (context, settled))
    (second : (Fresh.settle canonicalRules resolver inherited place fewer y).result =
      .ok (other, result)) : Akin tolerance settled result := by
  -- both runs together get shorter with each application
  induction total : steps + fewer using Nat.strong_induction_on generalizing x y steps fewer with
  | _ total ih =>
    rcases steps with _ | steps
    · cases first
    rcases fewer with _ | fewer
    · cases second
    have run := first
    have other_run := second
    rw [Fresh.settle] at run other_run
    obtain ⟨found, here, left⟩ := Traced.ofExcept_bind_ok run
    obtain ⟨also, there, right⟩ := Traced.ofExcept_bind_ok other_run
    rw [akin.context lenient resemblance here] at there
    cases there
    obtain ⟨_, ran, left⟩ := Traced.bind_result_ok left
    obtain ⟨_, runs, right⟩ := Traced.bind_result_ok right
    cases Rule.first_result_ok ran
    cases Rule.first_result_ok runs
    obtain ⟨_, _, left⟩ := Traced.bind_result_ok left
    obtain ⟨_, _, right⟩ := Traced.bind_result_ok right
    by_cases merges : ∃ rule, canonicalRules.find? (·.condition x found) = some rule ∧ rule.Merges
    · obtain ⟨rule, matched, merges⟩ := merges
      rw [matched] at left
      exact ih (steps + (fewer + 1)) (by omega) (akin.merge_left lenient merges) left second rfl
    by_cases drops : ∃ rule, canonicalRules.find?
        (·.condition y { found with pointer := place }) = some rule ∧ rule.Merges
    · obtain ⟨rule, matched, merges⟩ := drops
      rw [matched] at right
      exact ih (steps + 1 + fewer) (by omega) (akin.merge_right lenient merges) first right rfl
    · have same := akin.find?_eq lenient resemblance
        (fun rule matched merging => merges ⟨rule, matched, merging⟩)
        fun rule matched merging => drops ⟨rule, matched, merging⟩
      rw [← same] at right
      cases matched : canonicalRules.find? (·.condition x found) with
      | none =>
        rw [matched] at left right
        cases left
        cases right
        exact akin
      | some rule =>
        rw [matched] at left right
        have plain : ¬rule.Merges := fun merging => merges ⟨rule, matched, merging⟩
        have applies := List.find?_some matched
        have transformed := akin.transform lenient resemblance
          (List.mem_of_find?_eq_some matched) plain applies
        exact ih (steps + fewer) (by omega) transformed left right rfl

end

end SchemaPack
