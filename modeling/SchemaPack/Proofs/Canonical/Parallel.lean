import SchemaPack.Proofs.Canonical.Footprint
import SchemaPack.Proofs.Canonical.Keeps
import SchemaPack.Proofs.Json.Totals

namespace SchemaPack

open Json

abbrev Tolerance := String → Option Json → Option Json → Prop

/-- A tolerance that rules cannot tell from equality: assertions are related as data, and nothing
    shows of a difference in the rest. -/
structure Tolerance.Fair (D : Json → Json → Prop) (tolerance : Tolerance) : Prop where
  none : ∀ name, tolerance name none none
  data : ∀ name ∈ Keyword.assertions, ∀ a b, tolerance name a b ↔ Option.Rel D a b
  shown : ∀ name ∈ Keyword.shown, ∀ a b, tolerance name a b →
    Option.Rel (Shaped name) a b
  properties : tolerance "properties" (some .emptyObject) (some .emptyObject)

/-- Two objects whose differences are tolerated. -/
structure Parallel (tolerance : Tolerance) (x y : Json) : Prop where
  left : x.isObject = true
  right : y.isObject = true
  names : x.names.Nodup
  others : y.names.Nodup
  values : ∀ name, tolerance name (x.get? name) (y.get? name)

section

variable {D : Json → Json → Prop} {tolerance : Tolerance} (fair : tolerance.Fair D) {x y : Json}

namespace Parallel

include fair

theorem erase (parallel : Parallel tolerance x y) (name : String) :
    Parallel tolerance (x.erase name) (y.erase name) where
  left := by rw [isObject_erase, parallel.left]
  right := by rw [isObject_erase, parallel.right]
  names := nodup_erase parallel.names name
  others := nodup_erase parallel.others name
  values := by
    intro other
    by_cases erased : name = other
    · subst erased
      rw [get?_erase_self, get?_erase_self]
      exact fair.none name
    · rw [get?_erase_ne _ erased, get?_erase_ne _ erased]
      exact parallel.values other

theorem eraseAll (parallel : Parallel tolerance x y) (names : List String) :
    Parallel tolerance (x.eraseAll names) (y.eraseAll names) := by
  unfold Json.eraseAll
  induction names generalizing x y with
  | nil => exact parallel
  | cons name rest ih => exact ih (parallel.erase fair name)

omit fair in
theorem insert (parallel : Parallel tolerance x y) {name : String} {v w : Json}
    (inserted : tolerance name (some v) (some w)) :
    Parallel tolerance (x.insert name v) (y.insert name w) where
  left := by rw [isObject_insert, parallel.left]
  right := by rw [isObject_insert, parallel.right]
  names := nodup_insert parallel.names name v
  others := nodup_insert parallel.others name w
  values := by
    intro other
    by_cases same : name = other
    · subst same
      rw [get?_insert_self _ _ _ parallel.left, get?_insert_self _ _ _ parallel.right]
      exact inserted
    · rw [get?_insert_ne _ _ same, get?_insert_ne _ _ same]
      exact parallel.values other

theorem insert_data (parallel : Parallel tolerance x y) {name : String}
    (data : name ∈ Keyword.assertions) {v w : Json} (same : D v w) :
    Parallel tolerance (x.insert name v) (y.insert name w) :=
  parallel.insert ((fair.data name data _ _).mpr (.some same))

theorem data (parallel : Parallel tolerance x y) {name : String}
    (data : name ∈ Keyword.assertions) : Matches D x y name :=
  (fair.data name data _ _).mp (parallel.values name)

variable (resemblance : Resemblance D)
include resemblance

theorem coincide (parallel : Parallel tolerance x y) :
    Coincide D Keyword.assertions (Keyword.assertions ++ Keyword.shown) x y where
  object := parallel.left.trans parallel.right.symm
  truth := by rw [not_true_of_isObject parallel.left, not_true_of_isObject parallel.right]
  read := fun _ data => parallel.data fair data
  shown := by
    intro name used
    rcases List.mem_append.mp used with data | shown
    · exact rel_mono (parallel.data fair data) (resemblance.shaped name)
    · exact fair.shown name shown _ _ (parallel.values name)

end Parallel

def Rule.Mirrors (tolerance : Tolerance) (rule : Rule) : Prop :=
  ∀ x y context, Parallel tolerance x y → rule.condition x context = true →
    Parallel tolerance (rule.transform x) (rule.transform y)

section Families

include fair

theorem mirrors_of_erase {rule : Rule} {name : String}
    (erases : ∀ node, rule.transform node = node.erase name) : rule.Mirrors tolerance := by
  intro x y context parallel _
  rw [erases, erases]
  exact parallel.erase fair name

theorem mirrors_of_eraseAll {rule : Rule} {names : List String}
    (erases : ∀ node, rule.transform node = node.eraseAll names) : rule.Mirrors tolerance := by
  intro x y context parallel _
  rw [erases, erases]
  exact parallel.eraseAll fair names

theorem mirrors_of_collapse {rule : Rule} (names : List String) (name : String) (value : Json)
    (resemblance : Resemblance D) (data : name ∈ Keyword.assertions) (literal : value.Literal)
    (collapses : ∀ node, rule.transform node = (node.eraseAll names).insert name value) :
    rule.Mirrors tolerance := by
  intro x y context parallel _
  rw [collapses, collapses]
  exact (parallel.eraseAll fair names).insert_data fair data (resemblance.refl literal)

end Families

variable (resemblance : Resemblance D)

namespace Redundancy

include fair resemblance

theorem tighterBound_mirrors {name inclusive exclusive : String} {tighter : Ordering}
    (closed : inclusive ∈ Keyword.assertions) (opened : exclusive ∈ Keyword.assertions) :
    (tighterBound name inclusive exclusive tighter).Mirrors tolerance := by
  intro x y context parallel _
  simp only [tighterBound]
  rcases rel_cases (resemblance.numberAt? (parallel.data fair closed)) with
    ⟨left, right⟩ | ⟨a, b, left, right, first⟩
  · rw [left, right]
    exact parallel
  · rcases rel_cases (resemblance.numberAt? (parallel.data fair opened)) with
      ⟨left', right'⟩ | ⟨c, d, left', right', second⟩
    · rw [left, right, left', right']
      exact parallel
    · rw [left, right, left', right']
      dsimp only
      rw [resemblance.compare_number first second]
      exact parallel.erase fair _

theorem rules_mirror : ∀ rule ∈ rules, rule.Mirrors tolerance := by
  simp only [rules, List.forall_mem_cons]
  refine ⟨?_, ?_, ?_, ?_, ?_, ?_, ?_, ?_, ?_, ?_, ?_, ?_, ?_, ?_, List.forall_mem_nil _⟩
  · exact mirrors_of_erase fair fun _ => rfl
  · exact mirrors_of_erase fair fun _ => rfl
  · exact mirrors_of_erase fair fun _ => rfl
  · exact mirrors_of_erase fair fun _ => rfl
  · exact mirrors_of_erase fair fun _ => rfl
  · exact mirrors_of_erase fair fun _ => rfl
  · exact mirrors_of_eraseAll fair fun _ => rfl
  · exact mirrors_of_erase fair fun _ => rfl
  · exact mirrors_of_erase fair fun _ => rfl
  · exact tighterBound_mirrors fair resemblance (by simp [Keyword.assertions_eq])
      (by simp [Keyword.assertions_eq])
  · exact tighterBound_mirrors fair resemblance (by simp [Keyword.assertions_eq])
      (by simp [Keyword.assertions_eq])
  · exact mirrors_of_erase fair fun _ => rfl
  · exact mirrors_of_erase fair fun _ => rfl
  · intro x y context parallel _
    have enum : Coincide D ["enum"] Keyword.assertions x y := by
      have same := parallel.coincide fair resemblance
      refine ⟨same.object, same.truth, ?_, fun name data => same.shown name (by simp [data])⟩
      exact fun name used => same.read name (by simp_all [Keyword.assertions_eq])
    simp only [idleAssertionsBesideEnum, idleBesideEnum_congr resemblance enum]
    exact parallel.eraseAll fair _

end Redundancy

namespace Spelling

include fair resemblance

theorem enumOfConst_parallel (parallel : Parallel tolerance x y) :
    Parallel tolerance (enumOfConst x) (enumOfConst y) := by
  have const := parallel.data fair (by simp [Keyword.assertions_eq] : "const" ∈ _)
  unfold enumOfConst
  rcases rel_cases const with ⟨left, right⟩ | ⟨a, b, left, right, value⟩
  · rw [left, right]
    exact parallel
  · rw [left, right]
    apply (parallel.erase fair "const").insert_data fair (by simp [Keyword.assertions_eq])
    exact resemblance.array.mpr (.cons value .nil)

theorem inclusiveBound_mirrors {name exclusive inclusive : String} {rounding : Rounding}
    {step : Int} (opened : exclusive ∈ Keyword.assertions)
    (closed : inclusive ∈ Keyword.assertions) :
    (inclusiveBound name exclusive inclusive rounding step).Mirrors tolerance := by
  intro x y context parallel _
  simp only [inclusiveBound]
  have bound := rel_bind (resemblance.numberAt? (parallel.data fair opened))
    fun _ _ => @inclusive?_congr D resemblance rounding step _ _
  rcases rel_cases bound with ⟨left, right⟩ | ⟨a, b, left, right, value⟩
  · rw [left, right]
    exact parallel
  · rw [left, right]
    exact (parallel.erase fair exclusive).insert_data fair closed value

omit resemblance in
theorem branch_parallel {members others : Members} {type kind : Json}
    (parallel : Parallel tolerance (.object members) (.object others)) (same : D type kind) :
    Parallel tolerance (branch members type) (branch others kind) where
  left := rfl
  right := rfl
  names := branch_nodup parallel.names type
  others := branch_nodup parallel.others kind
  values := by
    intro name
    by_cases typed : name = "type"
    · subst typed
      rw [branch_type, branch_type]
      exact (fair.data "type" (by simp [Keyword.assertions_eq]) _ _).mpr (.some same)
    by_cases wrapper : name ∈ wrapperKeywords
    · rw [branch_get?_none _ _ wrapper, branch_get?_none _ _ wrapper]
      exact fair.none name
    · have moved : moves name = true := by simp [moves, wrapper, typed]
      rw [branch_get? _ _ moved, branch_get? _ _ moved]
      exact parallel.values name

omit resemblance in
theorem wrapped_parallel {members others : Members} {as bs : List Json}
    (parallel : Parallel tolerance (.object members) (.object others))
    (branches : tolerance "anyOf" (some (.array as)) (some (.array bs))) :
    Parallel tolerance (wrapped members as) (wrapped others bs) where
  left := rfl
  right := rfl
  names := wrapped_nodup parallel.names as
  others := wrapped_nodup parallel.others bs
  values := by
    intro name
    by_cases split : "anyOf" = name
    · subst split
      rw [wrapped_anyOf, wrapped_anyOf]
      exact branches
    cases wrapper : wrapperKeywords.contains name with
    | false =>
      rw [wrapped_get?_none _ _ wrapper split, wrapped_get?_none _ _ wrapper split]
      exact fair.none name
    | true =>
      rw [wrapped_get? _ _ (List.contains_iff_mem.mp wrapper),
        wrapped_get? _ _ (List.contains_iff_mem.mp wrapper)]
      exact parallel.values name

theorem typeUnion_mirrors
    (branches : ∀ as bs, List.Forall₂ (Parallel tolerance) as bs →
      tolerance "anyOf" (some (.array as)) (some (.array bs))) : typeUnion.Mirrors tolerance := by
  intro x y context parallel _
  obtain ⟨members, rfl⟩ := eq_object_of_isObject parallel.left
  obtain ⟨others, rfl⟩ := eq_object_of_isObject parallel.right
  have types := resemblance.arrayAt? (parallel.data fair (by simp [Keyword.assertions_eq] :
    "type" ∈ _))
  simp only [typeUnion]
  rcases rel_cases types with ⟨left, right⟩ | ⟨as, bs, left, right, items⟩
  · simp only [splitTypes, left, right]
    exact parallel
  · rw [splitTypes_eq left, splitTypes_eq right]
    apply wrapped_parallel fair parallel
    apply branches
    rw [List.forall₂_map_left_iff, List.forall₂_map_right_iff]
    exact items.imp fun _ _ same => branch_parallel fair parallel same

theorem rules_mirror : ∀ rule ∈ rules, rule ≠ typeUnion → rule.Mirrors tolerance := by
  simp only [rules, List.forall_mem_cons]
  refine ⟨?_, ?_, ?_, ?_, fun other => absurd rfl other, ?_, ?_, List.forall_mem_nil _⟩
  · intro _ x y context parallel condition
    obtain ⟨members, rfl⟩ := eq_object_of_isObject parallel.left
    simp only [trueSchema, Bool.and_eq_true] at condition
    cases condition.2
  · exact fun _ x y context parallel _ => enumOfConst_parallel fair resemblance parallel
  · exact fun _ => mirrors_of_collapse fair ["type"] "enum" _ resemblance
      (by simp [Keyword.assertions_eq]) (by decide) fun _ => rfl
  · exact fun _ => mirrors_of_collapse fair ["type"] "const" _ resemblance
      (by simp [Keyword.assertions_eq]) (by decide) fun _ => rfl
  · exact fun _ => inclusiveBound_mirrors fair resemblance (by simp [Keyword.assertions_eq])
      (by simp [Keyword.assertions_eq])
  · exact fun _ => inclusiveBound_mirrors fair resemblance (by simp [Keyword.assertions_eq])
      (by simp [Keyword.assertions_eq])

end Spelling

namespace Collapse

theorem closeRequired_of_some {required pending items : List Json} {dependent : Members}
    {entry : Json} {name : String} (found : dependencies? dependent entry = some (name, items)) :
    closeRequired required dependent (entry :: pending) =
      closeRequired (required ++ missing required items) (Members.erase dependent name)
        (pending ++ missing required items) := by
  rw [closeRequired]
  split
  · rename_i same
    cases found.symm.trans same
    rfl
  · rename_i none
    cases found.symm.trans none

theorem closeRequired_of_none {required pending : List Json} {dependent : Members} {entry : Json}
    (none : dependencies? dependent entry = none) :
    closeRequired required dependent (entry :: pending) =
      closeRequired required dependent pending := by
  rw [closeRequired]
  split
  · rename_i found
    cases none.symm.trans found
  · rfl

include resemblance

theorem missing_congr {known others items values : List Json}
    (have_known : List.Forall₂ D known others) (same : List.Forall₂ D items values) :
    List.Forall₂ D (missing known items) (missing others values) := by
  induction same generalizing known others with
  | nil => exact .nil
  | cons first rest ih =>
    cases resemblance.kindred first with
    | string s t =>
      cases resemblance.string first
      have listed := resemblance.mem_string have_known s
      rw [missing, missing]
      by_cases here : Json.string s ∈ known
      · rw [if_pos here, if_pos (listed.mp here)]
        exact ih have_known
      · rw [if_neg here, if_neg (mt listed.mpr here)]
        exact .cons first (ih (List.rel_append have_known (.cons first .nil)))
    | null | bool | number | array | object => exact ih have_known

theorem closeRequired_congr {required required' pending pending' : List Json}
    {dependent dependent' : Members} (first : List.Forall₂ D required required')
    (second : D (.object dependent) (.object dependent'))
    (third : List.Forall₂ D pending pending') :
    List.Forall₂ D (closeRequired required dependent pending).1
        (closeRequired required' dependent' pending').1 ∧
      D (.object (closeRequired required dependent pending).2)
        (.object (closeRequired required' dependent' pending').2) := by
  induction required, dependent, pending using closeRequired.induct
    generalizing required' dependent' pending' with
  | case1 required dependent =>
    cases third
    rw [closeRequired, closeRequired]
    exact ⟨first, second⟩
  | case2 required dependent entry pending name items found added =>
    rename_i ih
    cases third with
    | @cons _ entry' _ rest' same rest =>
      rcases rel_cases (dependencies?_congr resemblance second same) with
        ⟨none, _⟩ | ⟨p, ⟨name', items'⟩, left, right, names, values⟩
      · cases none.symm.trans found
      · cases left.symm.trans found
        dsimp only at names values
        subst names
        have more := missing_congr resemblance first values
        rw [closeRequired_of_some found, closeRequired_of_some right]
        exact ih (List.rel_append first more) (resemblance.erase second name)
          (List.rel_append rest more)
  | case3 required dependent entry pending unused ih =>
    cases third with
    | @cons _ entry' _ rest' same rest =>
      rcases rel_cases (dependencies?_congr resemblance second same) with
        ⟨_, none⟩ | ⟨p, _, left, _, _⟩
      · rw [closeRequired_of_none unused, closeRequired_of_none none]
        exact ih first second rest
      · cases left.symm.trans unused

include fair

theorem requiredDependencies_mirrors : requiredDependencies.Mirrors tolerance := by
  intro x y context parallel _
  have required := parallel.data fair (by simp [Keyword.assertions_eq] : "required" ∈ _)
  have dependent := parallel.data fair (by simp [Keyword.assertions_eq] : "dependentRequired" ∈ _)
  simp only [requiredDependencies]
  rcases rel_cases (resemblance.arrayAt? required) with
    ⟨left, right⟩ | ⟨as, bs, left, right, items⟩
  · rw [left, right]
    exact parallel
  · rcases rel_cases (resemblance.objectAt? dependent) with
      ⟨left', right'⟩ | ⟨m, n, left', right', members⟩
    · rw [left, right, left', right']
      exact parallel
    · rw [left, right, left', right']
      obtain ⟨entries, rest⟩ := closeRequired_congr resemblance items members items
      have middle := parallel.insert_data fair (by simp [Keyword.assertions_eq] :
        "dependentRequired" ∈ _) rest
      exact middle.insert_data fair (by simp [Keyword.assertions_eq])
        (resemblance.array.mpr entries)

theorem requiredCount_mirrors : requiredCount.Mirrors tolerance := by
  intro x y context parallel _
  have required := parallel.data fair (by simp [Keyword.assertions_eq] : "required" ∈ _)
  simp only [requiredCount, distinctRequired?_congr resemblance required]
  cases distinctRequired? y with
  | none => exact parallel
  | some count =>
    exact parallel.insert_data fair (by simp [Keyword.assertions_eq])
      (resemblance.refl (literal_integer _ _))

omit fair in
theorem duplicates_mirrors {name keyword vocabulary : String}
    (data : ∀ a b, tolerance keyword a b ↔ Option.Rel D a b) :
    (duplicates name keyword vocabulary).Mirrors tolerance := by
  intro x y context parallel _
  have values := resemblance.arrayAt? ((data _ _).mp (parallel.values keyword))
  have unique := rel_bind values fun _ _ => resemblance.sortUnique
  simp only [duplicates]
  rcases rel_cases unique with ⟨left, right⟩ | ⟨as, bs, left, right, items⟩
  · rw [left, right]
    exact parallel
  · rw [left, right]
    apply parallel.insert
    exact (data _ _).mpr (.some (resemblance.array.mpr items))

theorem integralBound_mirrors {name keyword : String} {rounding : Rounding}
    (data : keyword ∈ Keyword.assertions) :
    (integralBound name keyword rounding).Mirrors tolerance := by
  intro x y context parallel _
  have bound := resemblance.numberAt? (parallel.data fair data)
  simp only [integralBound]
  rcases rel_cases bound with ⟨left, right⟩ | ⟨a, b, left, right, value⟩
  · rw [left, right]
    exact parallel
  · rw [left, right]
    exact parallel.insert_data fair data (resemblance.round value rounding)

theorem singleType_mirrors : singleType.Mirrors tolerance := by
  intro x y context parallel _
  have type := parallel.data fair (by simp [Keyword.assertions_eq] : "type" ∈ _)
  simp only [singleType]
  rcases rel_cases (resemblance.arrayAt? type) with ⟨left, right⟩ | ⟨as, bs, left, right, items⟩
  · rw [left, right]
    exact parallel
  · rw [left, right]
    cases items with
    | nil => exact parallel
    | cons first _ => exact parallel.insert_data fair (by simp [Keyword.assertions_eq]) first

theorem equalBounds_mirrors : equalBounds.Mirrors tolerance := by
  intro x y context parallel _
  have least := parallel.data fair (by simp [Keyword.assertions_eq] : "minimum" ∈ _)
  simp only [equalBounds]
  rcases rel_cases (resemblance.numberAt? least) with ⟨left, right⟩ | ⟨a, b, left, right, value⟩
  · rw [left, right]
    exact parallel
  · rw [left, right]
    exact (parallel.eraseAll fair _).insert_data fair (by simp [Keyword.assertions_eq]) value

theorem rules_mirror : ∀ rule ∈ rules, rule ≠ duplicateAllOf → rule ≠ duplicateAnyOf →
    rule.Mirrors tolerance := by
  simp only [rules, List.forall_mem_cons]
  refine ⟨?_, ?_, ?_, ?_, ?_, ?_, ?_, ?_, fun other => absurd rfl other,
    fun _ other => absurd rfl other, ?_, ?_, ?_, ?_, List.forall_mem_nil _⟩
  · exact fun _ _ => singleType_mirrors fair resemblance
  · exact fun _ _ x y context parallel _ => Spelling.enumOfConst_parallel fair resemblance parallel
  · exact fun _ _ => equalBounds_mirrors fair resemblance
  · exact fun _ _ => mirrors_of_collapse fair _ _ _ resemblance (by simp [Keyword.assertions_eq])
      (by decide) fun _ => rfl
  · exact fun _ _ => mirrors_of_collapse fair _ _ _ resemblance (by simp [Keyword.assertions_eq])
      (by decide) fun _ => rfl
  · exact fun _ _ => mirrors_of_collapse fair _ _ _ resemblance (by simp [Keyword.assertions_eq])
      (by decide) fun _ => rfl
  · exact fun _ _ => requiredDependencies_mirrors fair resemblance
  · exact fun _ _ => requiredCount_mirrors fair resemblance
  · exact fun _ _ => duplicates_mirrors resemblance
      (fair.data "enum" (by simp [Keyword.assertions_eq]))
  · exact fun _ _ => duplicates_mirrors resemblance
      (fair.data "required" (by simp [Keyword.assertions_eq]))
  · exact fun _ _ => integralBound_mirrors fair resemblance (by simp [Keyword.assertions_eq])
  · exact fun _ _ => integralBound_mirrors fair resemblance (by simp [Keyword.assertions_eq])

end Collapse

namespace Pruning

include fair

theorem rules_mirror : ∀ rule ∈ rules, rule.Mirrors tolerance := by
  intro rule listed
  obtain ⟨type, _, listed⟩ := List.mem_flatMap.mp listed
  obtain ⟨family, _, rfl⟩ := List.mem_map.mp listed
  exact mirrors_of_eraseAll fair fun _ => rfl

end Pruning

namespace Defaults

include fair resemblance

theorem default_mirrors {name : String} {type : InstanceType} {vocabulary keyword : String}
    {value : Json} (data : keyword ∈ Keyword.assertions) (literal : value.Literal) :
    (default name type vocabulary keyword value).Mirrors tolerance :=
  fun _ _ _ parallel _ => parallel.insert_data fair data (resemblance.refl literal)

theorem rules_mirror : ∀ rule ∈ rules, rule.Mirrors tolerance := by
  simp only [rules, List.forall_mem_cons]
  refine ⟨?_, ?_, ?_, ?_, ?_, ?_, ?_, List.forall_mem_nil _⟩
  · intro x y context parallel _
    exact parallel.insert_data fair (by simp [Keyword.assertions_eq])
      (resemblance.refl (by decide))
  · exact default_mirrors fair resemblance (by simp [Keyword.assertions_eq]) (literal_integer _ _)
  · exact default_mirrors fair resemblance (by simp [Keyword.assertions_eq]) (literal_integer _ _)
  · exact default_mirrors fair resemblance (by simp [Keyword.assertions_eq]) (literal_integer _ _)
  · exact default_mirrors fair resemblance (by simp [Keyword.assertions_eq]) (literal_integer _ _)
  · exact default_mirrors fair resemblance (by simp [Keyword.assertions_eq]) (by decide)
  · exact fun x y context parallel _ => parallel.insert fair.properties

end Defaults

/-- The rules that rewrite nothing but keywords of one node. -/
def Rule.Plain (rule : Rule) : Prop :=
  rule ≠ Spelling.typeUnion ∧ rule ≠ Collapse.duplicateAllOf ∧ rule ≠ Collapse.duplicateAnyOf

include fair resemblance in
theorem canonicalRules_mirror : ∀ rule ∈ canonicalRules, rule.Plain → rule.Mirrors tolerance := by
  intro rule listed plain
  simp only [canonicalRules, List.mem_append] at listed
  rcases listed with (((listed | listed) | listed) | listed) | listed
  · exact Redundancy.rules_mirror fair resemblance rule listed
  · exact Spelling.rules_mirror fair resemblance rule listed plain.1
  · exact Collapse.rules_mirror fair resemblance rule listed plain.2.1 plain.2.2
  · exact Pruning.rules_mirror fair rule listed
  · exact Defaults.rules_mirror fair resemblance rule listed

end

end SchemaPack
