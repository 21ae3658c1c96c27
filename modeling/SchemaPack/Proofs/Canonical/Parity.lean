import SchemaPack.Proofs.Canonical.Counterpart
import SchemaPack.Proofs.Canonical.Wrapper

namespace SchemaPack

open Json Canonical

theorem rel_results {α : Type} {S T R R' : α → α → Prop} {x y x' y' : Option α}
    (related : Option.Rel S x y) (left : Option.Rel R x x') (right : Option.Rel R' y y')
    (each : ∀ a b a' b', S a b → R a a' → R' b b' → T a' b') : Option.Rel T x' y' := by
  cases related with
  | none =>
    cases left
    cases right
    exact .none
  | some same =>
    obtain ⟨a', rfl, one⟩ := rel_some left
    obtain ⟨b', rfl, two⟩ := rel_some right
    exact .some (each _ _ _ _ same one two)

theorem Covers.results {S : Json → Json → Prop} {R R' : Json → Json → Prop}
    {as bs as' bs' : List Json} (covers : Covers S as bs)
    (each : ∀ a b a' b', S a b → R a a' → R' b b' → S a' b') (left : List.Forall₂ R as as')
    (right : List.Forall₂ R' bs bs') : Covers S as' bs' := by
  have forward := List.Forall₂.flip (R := flip R) left
  have onward := List.Forall₂.flip (R := flip R') right
  constructor
  · intro a' listed
    obtain ⟨a, from_a, first⟩ := exists_of_forall₂ left listed
    obtain ⟨b, partner, same⟩ := covers.1 a from_a
    obtain ⟨b', result, second⟩ := exists_of_forall₂ onward partner
    exact ⟨b', result, each a b a' b' same first second⟩
  · intro b' listed
    obtain ⟨b, from_b, second⟩ := exists_of_forall₂ right listed
    obtain ⟨a, partner, same⟩ := covers.2 b from_b
    obtain ⟨a', result, first⟩ := exists_of_forall₂ forward partner
    exact ⟨a', result, each a b a' b' same first second⟩

theorem Keyword.role_cases (vocabularies : Vocabularies) (name : String) :
    ((find? vocabularies name).map role).all (!·.holdsSubschemas) = true ∨
      (find? vocabularies name).map role = some (roleOf name) ∧
        (roleOf name).holdsSubschemas = true := by
  cases known : (find? vocabularies name).map role with
  | none => exact .inl rfl
  | some role =>
    cases holds : role.holdsSubschemas with
    | true =>
      have same := roleOf_eq known holds
      exact .inr ⟨by rw [same], by rw [same, holds]⟩
    | false => exact .inl (by simp [holds])

theorem Keyword.shown_of_holds {name : String} (holds : (roleOf name).holdsSubschemas = true) :
    name ∈ shown ∧ name ∉ data := by
  have table : ∀ keyword ∈ all, keyword.role.holdsSubschemas = true →
      keyword.name ∈ shown ∧ keyword.name ∉ data := by decide +kernel
  unfold roleOf at holds
  cases found : all.find? (·.name == name) with
  | none =>
    rw [found] at holds
    cases holds
  | some keyword =>
    rw [found] at holds
    have named := List.find?_some found
    rw [← beq_iff_eq.mp named]
    exact table keyword (List.mem_of_find?_eq_some found) holds

namespace Fresh

section Maps

variable {S : Json → Json → Prop} {visit other : String → Json → Traced Json}
  {members others : Members} (paired : Paired S members others)

include paired

theorem visitMembers_paired
    (each : ∀ name a b a' b', S a b → (visit name a).result = .ok a' →
      (other name b).result = .ok b' → S a' b') {results moved : Members}
    (first : (visitMembers visit members).result = .ok results)
    (second : (visitMembers other others).result = .ok moved) : Paired S results moved where
  left := visitMembers_names first ▸ paired.left
  right := visitMembers_names second ▸ paired.right
  values name := rel_results (paired.values name) (visitMembers_get? first name)
    (visitMembers_get? second name) (each name)

theorem visitMembers_paired_error {stop : Stop}
    (each : ∀ name a b a', S a b → b.Throughout Sharp → (visit name a).result = .ok a' →
      (other name b).result = .error stop → stop = .outOfSteps)
    (sharp : ∀ entry ∈ others, entry.2.Throughout Sharp) {results : Members}
    (first : (visitMembers visit members).result = .ok results)
    (second : (visitMembers other others).result = .error stop) : stop = .outOfSteps := by
  obtain ⟨entry, listed, failed⟩ := visitMembers_error second
  have found := (Members.mem_iff_get? paired.right).mp listed
  rcases rel_cases (paired.values entry.1) with ⟨_, none⟩ | ⟨a, b, left, right, same⟩
  · cases none.symm.trans found
  · cases right.symm.trans found
    obtain ⟨a', _, given⟩ := rel_some (left ▸ visitMembers_get? first entry.1)
    exact each _ _ _ _ same (sharp entry listed) given failed

end Maps

theorem visitKeyword_role (vocabularies : Vocabularies) (name : String) :
    (∀ look pointer value,
      visitKeyword Keyword.find? look vocabularies pointer name value = pure value) ∨
        ∃ role, (Keyword.find? vocabularies name).map Keyword.role = some role ∧
          role.holdsSubschemas = true ∧ Keyword.roleOf name = role := by
  rcases Keyword.role_cases vocabularies name with none | ⟨known, holds⟩
  · exact .inl fun _ _ _ => visitKeyword_eq_pure none
  · exact .inr ⟨_, known, holds, rfl⟩

section Shapes

variable {look : Pointer → Json → Traced Json} {vocabularies : Vocabularies} {pointer : Pointer}
  {name : String} {value result : Json} {stop : Stop}

theorem visitKeyword_items?
    (role : (Keyword.find? vocabularies name).map Keyword.role = some .subschemaList)
    (h : (visitKeyword Keyword.find? look vocabularies pointer name value).result = .ok result) :
    Option.Rel
      (List.Forall₂ fun item result => ∃ place, (look place item).result = .ok result)
      value.items? result.items? := by
  unfold visitKeyword at h
  rw [role] at h
  cases value with
  | array items =>
    obtain ⟨results, visited, last⟩ := Traced.bind_result_ok h
    cases last
    exact .some (visitItems_forall₂ visited)
  | null | bool | number | string | object =>
    cases h
    exact .none

theorem visitKeyword_members?
    (role : (Keyword.find? vocabularies name).map Keyword.role = some .subschemaMap)
    (h : (visitKeyword Keyword.find? look vocabularies pointer name value).result = .ok result) :
    Option.Rel
      (fun members results =>
        (visitMembers (fun key => look ((pointer.child name).child key)) members).result =
          .ok results)
      value.members? result.members? := by
  unfold visitKeyword at h
  rw [role] at h
  cases value with
  | object members =>
    obtain ⟨results, visited, last⟩ := Traced.bind_result_ok h
    cases last
    rw [visitEntries_eq] at visited
    exact .some visited
  | null | bool | number | string | array =>
    cases h
    exact .none

theorem visitKeyword_items?_error
    (role : (Keyword.find? vocabularies name).map Keyword.role = some .subschemaList)
    (h : (visitKeyword Keyword.find? look vocabularies pointer name value).result =
      .error stop) :
    ∃ items, value.items? = some items ∧
      ∃ item ∈ items, ∃ place, (look place item).result = .error stop := by
  unfold visitKeyword at h
  rw [role] at h
  cases value with
  | array items =>
    rcases Traced.bind_result_error h with failed | ⟨_, _, last⟩
    · exact ⟨items, rfl, visitItems_error failed⟩
    · cases last
  | null | bool | number | string | object => cases h

theorem visitKeyword_members?_error
    (role : (Keyword.find? vocabularies name).map Keyword.role = some .subschemaMap)
    (h : (visitKeyword Keyword.find? look vocabularies pointer name value).result =
      .error stop) :
    ∃ members, value.members? = some members ∧
      (visitMembers (fun key => look ((pointer.child name).child key)) members).result =
        .error stop := by
  unfold visitKeyword at h
  rw [role] at h
  cases value with
  | object members =>
    rcases Traced.bind_result_error h with failed | ⟨_, _, last⟩
    · rw [visitEntries_eq] at failed
      exact ⟨members, rfl, failed⟩
    · cases last
  | null | bool | number | string | array => cases h

end Shapes

section Pairs

variable {look other : Pointer → Json → Traced Json} {vocabularies : Vocabularies}
  {pointer place : Pointer} {name : String} {v w : Json}

theorem visitKeyword_inside
    (each : ∀ pointer place a b a' b', Counterpart a b → (look pointer a).result = .ok a' →
      (other place b).result = .ok b' → Counterpart a' b')
    (inside : Inside Counterpart (Keyword.roleOf name) v w) {v' w' : Json}
    (first : (visitKeyword Keyword.find? look vocabularies pointer name v).result = .ok v')
    (second : (visitKeyword Keyword.find? other vocabularies place name w).result = .ok w') :
    Inside Counterpart (Keyword.roleOf name) v' w' := by
  rcases visitKeyword_role vocabularies name with none | ⟨role, known, holds, same⟩
  · rw [none] at first second
    cases first
    cases second
    exact inside
  rw [same] at inside ⊢
  cases role with
  | subschema =>
    unfold visitKeyword at first second
    rw [known] at first second
    exact each _ _ _ _ _ _ inside first second
  | subschemaList =>
    refine rel_results inside (visitKeyword_items? known first) (visitKeyword_items? known second) ?_
    intro as bs as' bs' covers left right
    refine covers.results ?_ left right
    rintro a b a' b' same ⟨_, one⟩ ⟨_, two⟩
    exact each _ _ _ _ _ _ same one two
  | subschemaMap =>
    refine rel_results inside (visitKeyword_members? known first)
      (visitKeyword_members? known second) ?_
    intro ms ns ms' ns' paired left right
    exact visitMembers_paired paired (fun _ _ _ _ _ => each _ _ _ _ _ _) left right
  | identity | reference | comment | assertion | descriptive => cases holds

theorem visitKeyword_inside_error {stop : Stop}
    (each : ∀ pointer place a b a', Counterpart a b → b.Throughout Sharp →
      (look pointer a).result = .ok a' → (other place b).result = .error stop → stop = .outOfSteps)
    (inside : Inside Counterpart (Keyword.roleOf name) v w) (sharp : w.Throughout Sharp)
    {v' : Json} (first : (visitKeyword Keyword.find? look vocabularies pointer name v).result = .ok v')
    (second : (visitKeyword Keyword.find? other vocabularies place name w).result = .error stop) :
    stop = .outOfSteps := by
  rcases visitKeyword_role vocabularies name with none | ⟨role, known, holds, same⟩
  · rw [none] at second
    cases second
  rw [same] at inside
  cases role with
  | subschema =>
    unfold visitKeyword at first second
    rw [known] at first second
    exact each _ _ _ _ _ inside sharp first second
  | subschemaList =>
    obtain ⟨bs, right, b, listed, _, failed⟩ := visitKeyword_items?_error known second
    rcases rel_cases inside with ⟨_, none⟩ | ⟨as, _, left, found, covers⟩
    · cases none.symm.trans right
    cases found.symm.trans right
    obtain ⟨as', _, visited⟩ := rel_some (left ▸ visitKeyword_items? known first)
    obtain ⟨a, partner, same⟩ := covers.2 b listed
    have flipped := List.Forall₂.flip
      (R := fun a' a => ∃ place, (look place a).result = .ok a') visited
    obtain ⟨a', _, _, given⟩ := exists_of_forall₂ flipped partner
    exact each _ _ _ _ _ same (sharp.of_items? right b listed) given failed
  | subschemaMap =>
    obtain ⟨ns, right, failed⟩ := visitKeyword_members?_error known second
    rcases rel_cases inside with ⟨_, none⟩ | ⟨ms, _, left, found, paired⟩
    · cases none.symm.trans right
    cases found.symm.trans right
    obtain ⟨ms', _, visited⟩ := rel_some (left ▸ visitKeyword_members? known first)
    exact visitMembers_paired_error paired (fun _ _ _ _ => each _ _ _ _ _)
      (sharp.of_members? right) visited failed
  | identity | reference | comment | assertion | descriptive => cases holds

theorem data_holds_none : ∀ keyword ∈ Keyword.all, keyword.name ∈ Keyword.data →
    keyword.role.holdsSubschemas = false := by
  decide +kernel

theorem visitKeyword_data (data : name ∈ Keyword.data) :
    visitKeyword Keyword.find? look vocabularies pointer name v = pure v := by
  apply visitKeyword_eq_pure
  apply Keyword.holds_none
  rintro keyword listed rfl
  exact data_holds_none keyword listed data

theorem visitKeywords_parallel {D : Json → Json → Prop} {I : String → Json → Json → Prop}
    (inside : ∀ name v w v' w', I name v w →
      (visitKeyword Keyword.find? look vocabularies pointer name v).result = .ok v' →
      (visitKeyword Keyword.find? other vocabularies place name w).result = .ok w' → I name v' w')
    {members others results moved : Members}
    (parallel : Parallel (.across D I) (.object members) (.object others))
    (first : (visitKeywords Keyword.find? look vocabularies pointer members).result = .ok results)
    (second : (visitKeywords Keyword.find? other vocabularies place others).result = .ok moved) :
    Parallel (.across D I) (.object results) (.object moved) := by
  rw [visitKeywords_eq] at first second
  have same_names := visitMembers_names first
  have also_names := visitMembers_names second
  refine ⟨rfl, rfl, (same_names ▸ parallel.names : (results.map (·.1)).Nodup),
    (also_names ▸ parallel.others : (moved.map (·.1)).Nodup), fun name => ?_⟩
  have here := visitMembers_get? first name
  have there := visitMembers_get? second name
  have values := parallel.values name
  rw [get?_object, get?_object] at values ⊢
  refine Tolerance.across_intro (fun data => ?_) fun shown plain => ?_
  · refine rel_results ((Tolerance.across_data data).mp values) here there ?_
    intro v w v' w' same one two
    rw [visitKeyword_data data] at one two
    cases one
    cases two
    exact same
  · exact rel_results ((Tolerance.across_shown plain shown).mp values) here there (inside name)

theorem visitKeywords_parallel_error {stop : Stop}
    (each : ∀ pointer place a b a', Counterpart a b → b.Throughout Sharp →
      (look pointer a).result = .ok a' → (other place b).result = .error stop → stop = .outOfSteps)
    {members others results : Members}
    (parallel : Parallel (.upTo Counterpart) (.object members) (.object others))
    (sharp : ∀ entry ∈ others, entry.2.Throughout Sharp)
    (first : (visitKeywords Keyword.find? look vocabularies pointer members).result = .ok results)
    (second : (visitKeywords Keyword.find? other vocabularies place others).result = .error stop) :
    stop = .outOfSteps := by
  rw [visitKeywords_eq] at first second
  obtain ⟨⟨name, w⟩, listed, failed⟩ := visitMembers_error second
  have right : others.get? name = some w := (Members.mem_iff_get? parallel.others).mp listed
  rcases visitKeyword_role vocabularies name with none | ⟨role, known, holds, same⟩
  · rw [none] at failed
    cases failed
  · obtain ⟨shown, plain⟩ := Keyword.shown_of_holds (same ▸ holds)
    have values := (Tolerance.across_shown plain shown).mp (parallel.values name)
    rw [get?_object, get?_object, right] at values
    rcases rel_cases values with ⟨_, none⟩ | ⟨v, _, left, found, inside⟩
    · cases none
    · cases found
      obtain ⟨v', _, given⟩ := rel_some (left ▸ visitMembers_get? first name)
      exact visitKeyword_inside_error each inside (sharp _ listed) given failed

end Pairs

variable {resolver : Resolver} {inherited : String} {pointer place : Pointer} {x y : Json}
  {steps fewer : Nat}

theorem uncrashed_of_akin {D : Json → Json → Prop} {tolerance : Tolerance}
    (lenient : tolerance.Lenient D) (resemblance : Resemblance D) (akin : Akin tolerance x y)
    (precise : y.Precise) {context : Context} {rule : Rule} (listed : rule ∈ canonicalRules)
    (safe : rule.crashes x context = false) :
    rule.crashes y { context with pointer := place } = false := by
  by_cases division : rule = Collapse.equalBounds
  · subst division
    have footprint := Collapse.equalBounds_crashes resemblance
    have same := akin.coincide lenient resemblance
    rw [← footprint.congr x y context { context with pointer := place } rfl
      (same.mono (by simp [Keyword.assertions_eq]) (by simp [Keyword.assertions_eq])), safe]
  · exact canonicalRules_sorting_uncrashed precise _ rule listed division

theorem settle_parity {D : Json → Json → Prop} {tolerance : Tolerance}
    (lenient : tolerance.Lenient D) (resemblance : Resemblance D) (akin : Akin tolerance x y)
    (sharp : y.Throughout Sharp) {context : Context} {settled : Json} {stop : Stop}
    (first : (settle canonicalRules resolver inherited pointer steps x).result =
      .ok (context, settled))
    (second : (settle canonicalRules resolver inherited place fewer y).result = .error stop) :
    stop = .outOfSteps := by
  -- as where both settle, both runs together get shorter with each application
  induction total : steps + fewer using Nat.strong_induction_on generalizing x y steps fewer with
  | _ total ih =>
    rcases steps with _ | steps
    · cases first
    rcases fewer with _ | fewer
    · cases second
      rfl
    have run := first
    have other_run := second
    rw [settle] at run other_run
    obtain ⟨found, here, left⟩ := Traced.ofExcept_bind_ok run
    rw [akin.context lenient resemblance here, Traced.ofExcept_ok_bind] at other_run
    obtain ⟨_, ran, left⟩ := Traced.bind_result_ok left
    obtain ⟨_, _, left⟩ := Traced.bind_result_ok left
    by_cases merges : ∃ rule, canonicalRules.find? (·.condition x found) = some rule ∧ rule.Merges
    · obtain ⟨rule, matched, merges⟩ := merges
      cases Rule.first_result_ok ran
      rw [matched] at left
      exact ih (steps + (fewer + 1)) (by omega) (akin.merge_left lenient merges) sharp left second
        rfl
    have plain : ∀ rule, canonicalRules.find? (·.condition x found) = some rule → ¬rule.Merges :=
      fun rule matched merging => merges ⟨rule, matched, merging⟩
    cases Rule.first_result_ok ran
    have spared : ∃ also, Rule.first y { found with pointer := place } canonicalRules =
        pure also := by
      refine Rule.first_spared ran ?_ fun rule listed =>
        uncrashed_of_akin lenient resemblance akin ((precise_iff y).mpr sharp) listed
      intro rule listed matched
      have applies := List.find?_some matched
      rwa [← akin.condition_eq lenient resemblance listed (plain rule matched)]
    obtain ⟨_, runs⟩ := spared
    cases Rule.first_result_ok (congrArg Traced.result runs)
    rw [runs, pure_bind, Traced.bind_ok (Traced.emit_result _)] at other_run
    cases matched : canonicalRules.find? (·.condition y { found with pointer := place }) with
    | none =>
      rw [matched] at other_run
      cases other_run
    | some rule =>
      rw [matched] at other_run
      have listed := List.mem_of_find?_eq_some matched
      have applies := List.find?_some matched
      have sharper := canonicalRules_uphold lasting_sharp rule listed y _ applies sharp
      by_cases drops : rule.Merges
      · exact ih (steps + 1 + fewer) (by omega) (akin.merge_right lenient drops) sharper first
          other_run rfl
      · have same := akin.find?_eq lenient resemblance plain fun other also =>
          Option.some.inj (matched.symm.trans also) ▸ drops
        rw [matched] at same
        rw [same] at left
        have also := List.find?_some same
        exact ih (steps + fewer) (by omega) (akin.transform lenient resemblance listed drops also)
          sharper left other_run rfl

theorem settle_lenient {D : Json → Json → Prop} {tolerance : Tolerance}
    (lenient : tolerance.Lenient D) (resemblance : Resemblance D) {context other : Context}
    {settled result : Json} (akin : Akin tolerance x y)
    (first : (settle canonicalRules resolver inherited pointer steps x).result =
      .ok (context, settled))
    (second : (settle canonicalRules resolver inherited place fewer y).result =
      .ok (other, result)) :
    Akin tolerance settled result ∧ other = { context with pointer := place } := by
  have related := settle_akin lenient resemblance akin first second
  have here := (settle_unmatched first).1
  have there := (settle_unmatched second).1
  rw [related.context lenient resemblance here] at there
  exact ⟨related, (Except.ok.inj there).symm⟩

theorem visit_akin {D : Json → Json → Prop} {I : String → Json → Json → Prop}
    (lenient : (Tolerance.across D I).Lenient D) (resemblance : Resemblance D)
    (inside : ∀ dialect vocabularies pointer place name v w v' w', I name v w →
      (visitKeyword Keyword.find? (visit canonicalRules Keyword.find? resolver steps dialect)
        vocabularies pointer name v).result = .ok v' →
      (visitKeyword Keyword.find? (visit canonicalRules Keyword.find? resolver fewer dialect)
        vocabularies place name w).result = .ok w' → I name v' w')
    (akin : Akin (.across D I) x y) {x' y' : Json}
    (first : (visit canonicalRules Keyword.find? resolver (steps + 1) inherited pointer x).result =
      .ok x')
    (second : (visit canonicalRules Keyword.find? resolver (fewer + 1) inherited place y).result =
      .ok y') : Akin (.across D I) x' y' := by
  obtain ⟨⟨context, settled⟩, here, left⟩ := Traced.bind_result_ok first
  obtain ⟨⟨other, result⟩, there, right⟩ := Traced.bind_result_ok second
  obtain ⟨related, rfl⟩ := settle_lenient lenient resemblance akin here there
  cases settled with
  | object members =>
    obtain ⟨others, rfl⟩ := eq_object_of_isObject related.object.symm
    obtain ⟨results, visited, last⟩ := Traced.bind_result_ok left
    cases last
    obtain ⟨moved, also, last⟩ := Traced.bind_result_ok right
    cases last
    exact (visitKeywords_parallel (inside _ _ _ _) (related.parallel rfl) visited also).akin
  | null | bool | number | string | array =>
    cases result with
    | object => cases related.object
    | null | bool | number | string | array =>
      cases left
      cases right
      exact related

theorem visit_counterpart {x' y' : Json} (same : Counterpart x y)
    (first : (visit canonicalRules Keyword.find? resolver steps inherited pointer x).result =
      .ok x')
    (second : (visit canonicalRules Keyword.find? resolver fewer inherited place y).result =
      .ok y') : Counterpart x' y' := by
  induction steps generalizing fewer inherited pointer place x y x' y' with
  | zero => cases first
  | succ steps ih =>
    rcases fewer with _ | fewer
    · cases second
    refine .of_akin (visit_akin counterpart_lenient resemblance_interchangeable ?_ same.akin
      first second)
    intro dialect vocabularies pointer place name v w v' w' related one two
    exact visitKeyword_inside (fun pointer place a b a' b' =>
      @ih dialect pointer place a b fewer a' b') related one two

theorem visit_parity {x' : Json} {stop : Stop} (same : Counterpart x y)
    (sharp : y.Throughout Sharp)
    (first : (visit canonicalRules Keyword.find? resolver steps inherited pointer x).result =
      .ok x')
    (second : (visit canonicalRules Keyword.find? resolver fewer inherited place y).result =
      .error stop) : stop = .outOfSteps := by
  induction steps generalizing fewer inherited pointer place x y x' with
  | zero => cases first
  | succ steps ih =>
    rcases fewer with _ | fewer
    · cases second
      rfl
    obtain ⟨⟨context, settled⟩, here, left⟩ := Traced.bind_result_ok first
    rcases Traced.bind_result_error second with failed | ⟨⟨other, result⟩, there, right⟩
    · exact settle_parity counterpart_lenient resemblance_interchangeable same.akin sharp here
        failed
    obtain ⟨akin, rfl⟩ :=
      settle_lenient counterpart_lenient resemblance_interchangeable same.akin here there
    have sharper := settle_throughout lasting_sharp there sharp
    cases result with
    | object others =>
      obtain ⟨members, rfl⟩ := eq_object_of_isObject akin.object
      obtain ⟨results, visited, _⟩ := Traced.bind_result_ok left
      rcases Traced.bind_result_error right with failed | ⟨_, _, last⟩
      · have each := fun pointer place a b a' =>
          @ih context.dialect pointer place a b fewer a'
        exact visitKeywords_parallel_error each (akin.parallel rfl) sharper.entries visited failed
      · cases last
    | null | bool | number | string | array => cases right

/-- A run comes to its end on the counterparts of a document if it does on the document, unless
    it is short of steps. -/
theorem runPasses_parity {dialect : String} {number applied : Nat} {stop : Stop}
    (same : Counterpart x y) (sharp : y.Throughout Sharp)
    (first : ∃ steps number applied x', (runPasses canonicalRules Keyword.find? resolver dialect
      steps number applied x).result = .ok x')
    (second : (runPasses canonicalRules Keyword.find? resolver dialect fewer number applied
      y).result = .error stop) : stop = .outOfSteps := by
  induction fewer generalizing number applied x y with
  | zero =>
    cases second
    rfl
  | succ fewer ih =>
    have run := first
    obtain ⟨_, _, _, x', ends⟩ := run
    obtain ⟨steps, passed, rfl, here, left⟩ := runPasses_cases ends
    rcases Traced.bind_result_error second with failed | ⟨arrived, there, right⟩
    · exact visit_parity same sharp here failed
    have related := visit_counterpart same here there
    have sharper := visit_throughout lasting_sharp there sharp
    rcases Traced.bind_result_error right with impossible | ⟨_, _, right⟩
    · cases impossible
    split at right
    · -- the first run goes on with the outcome of its pass, or would make the same pass again
      refine ih related sharper ?_ right
      rcases left with ⟨_, left⟩ | ⟨idle, _, _⟩
      · exact ⟨_, _, _, x', left⟩
      · exact idle ▸ first
    · cases right

end Fresh

theorem canonicalize_parity {resolver : Resolver} {default : Option String} {x y x' : Json}
    {limit : Nat} (same : Counterpart x y) (distinct : y.Distinct) (precise : y.Precise)
    (first : (canonicalize resolver default x limit).result = .ok x') :
    ∃ more y', (canonicalize resolver default y more).result = .ok y' := by
  let enough := weight .subschema y + 3
  cases second : (canonicalize resolver default y enough).result with
  | ok y' => exact ⟨enough, y', second⟩
  | error stop =>
    have tidy := tidy_of_distinct .subschema y distinct
    have ends := (canonicalize_ends resolver default tidy precise (Nat.lt_succ_self _)).1
    have declared : Dialect.ofDocument x default = Dialect.ofDocument y default := by
      rw [Dialect.ofDocument, Dialect.ofDocument,
        same.akin.declared? counterpart_lenient resemblance_interchangeable]
    rw [canonicalize, saturate_eq] at first
    obtain ⟨dialect, root, run⟩ := Traced.ofExcept_bind_ok first
    refine absurd ?_ ends
    have failed := second
    rw [canonicalize, saturate_eq, ← declared, root, Traced.ofExcept_ok_bind] at failed
    rw [second, Fresh.runPasses_parity same ((precise_iff y).mp precise) ⟨_, _, _, _, run⟩ failed]

end SchemaPack
