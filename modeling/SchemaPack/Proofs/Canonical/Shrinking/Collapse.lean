import SchemaPack.Proofs.Canonical.Lasting
import SchemaPack.Proofs.Canonical.Shrinking.Spelling

namespace SchemaPack

open Canonical

namespace Collapse

theorem singleType_shrinks : singleType.Shrinks := by
  intro node context tidy _ condition
  simp only [singleType, Bool.and_eq_true] at condition ⊢
  have matched := condition.2
  split at matched
  · rename_i name found
    have present := Json.get?_of_arrayAt? found
    have object := Json.isObject_of_get? present
    simp only [found]
    have typed := Json.get?_insert_self node "type" (.string name) object
    have demands : demand (node.insert "type" (.string name)) ≤ demand node :=
      demand_le (.inl (node.get?_insert_ne _ (by decide)))
        (.inl (node.get?_insert_ne _ (by decide)))
    refine ⟨tidy.insert (tidy_plain (by decide) _), weight_lt object ?_ ?_ ?_⟩
    · rw [Json.isObject_insert, object]
    · simp only [copies, typed, present, List.length_singleton]
      omega
    · have lighter := (node.insert "type" (.string name)).total_mono (charge_mono demands)
      have added := @Json.total_insert_le (charge (demand node)) node tidy.distinct "type"
        (.string name)
      have same : charge (demand node) "type" (.string name) =
          node.share (charge (demand node)) "type" := by
        rw [Json.share_of_get? present, charge_plain (by decide),
          charge_plain (by decide)]
        rfl
      have few := Nat.mul_le_mul (pendingDefaults_le (node.insert "type" (.string name)))
        (Nat.add_le_add_right demands 4)
      simp only [bulk, potential, typed, present]
      omega
  · cases matched

theorem constInEnum_shrinks : constInEnum.Shrinks := by
  intro node context tidy _ condition
  simp only [constInEnum, Bool.and_eq_true] at condition
  have matched := condition.2
  split at matched
  · rename_i value values found _
    exact Spelling.enumOfConst_shrinks tidy found
  · cases matched

theorem total_const_le {node : Json} (tidy : Tidy .subschema node) (demand : Nat) (value : Json) :
    (node.insert "const" value).total (charge demand) ≤ node.total (charge demand) + 4 := by
  have added := @Json.total_insert_le (charge demand) node tidy.distinct "const" value
  have four : charge demand "const" value = 4 := by
    rw [charge_plain (by decide)]
    rfl
  omega

theorem equalBounds_shrinks : equalBounds.Shrinks := by
  intro node context tidy _ condition
  obtain ⟨minimum, maximum, pinned⟩ := pinned_of_condition condition
  rw [equalBounds_transform pinned]
  obtain ⟨type, declared⟩ : ∃ type, node.declaredType? = some type := by
    have numeric := pinned.numeric
    simp only [Json.hasType, beq_iff_eq] at numeric
    rcases numeric with integer | number
    · exact ⟨_, integer⟩
    · exact ⟨_, number⟩
  obtain ⟨name, typed, _⟩ := Json.get?_of_declaredType? declared
  have object := Json.isObject_of_get? typed
  have erased := (Json.isObject_eraseAll node ["type", "minimum", "maximum", "multipleOf"]).trans
    object
  refine ⟨(tidy.eraseAll _).insert (tidy_plain (by decide) _), ?_⟩
  refine weight_lt_of_listed ?_ typed ?_ (by decide : "const" ∈ ["const", "enum", "anyOf"]) ?_ ?_
    ?_
  · rw [Json.isObject_insert, erased]
  · rw [Json.get?_insert_ne _ _ (by decide), Json.get?_eraseAll_of_mem _ (by decide)]
  · exact Json.contains_of_get? (Json.get?_insert_self _ _ _ erased)
  · exact demand_le (.inl (collapse_get? node _ (by decide)))
      (.inl (collapse_get? node _ (by decide)))
  · have dropped := @Json.total_eraseAll_le (charge (demand node)) node tidy.distinct
      ["type", "minimum", "maximum", "multipleOf"]
    have added := total_const_le (tidy.eraseAll ["type", "minimum", "maximum", "multipleOf"])
      (demand node) (.number minimum)
    omega

theorem shrinks_of_emptied {node value : Json} {names : List String} {bound : String}
    (tidy : Tidy .subschema node) (present : node.zeroAt bound = true) (listed : bound ∈ names)
    (typing : "type" ∉ names) (heavy : ∀ demand value, 4 < charge demand bound value) :
    Tidy .subschema ((node.eraseAll names).insert "const" value) ∧
      weight .subschema ((node.eraseAll names).insert "const" value) <
        weight .subschema node := by
  obtain ⟨limit, found⟩ : ∃ limit, node.numberAt? bound = some limit := by
    cases found : node.numberAt? bound with
    | some limit => exact ⟨limit, rfl⟩
    | none =>
      rw [Json.zeroAt, found] at present
      cases present
  have held := Json.get?_of_numberAt? found
  have object := Json.isObject_of_get? held
  have erased := (Json.isObject_eraseAll node names).trans object
  have listed_value : ((node.eraseAll names).insert "const" value).contains "const" = true :=
    Json.contains_of_get? (Json.get?_insert_self _ _ _ erased)
  have others : ∀ keyword, "const" ≠ keyword →
      ((node.eraseAll names).insert "const" value).get? keyword = node.get? keyword ∨
        ((node.eraseAll names).insert "const" value).get? keyword = none := by
    intro keyword other
    rw [Json.get?_insert_ne _ _ other]
    exact get?_eraseAll_or node names keyword
  refine ⟨(tidy.eraseAll names).insert (tidy_plain (by decide) _), ?_⟩
  refine weight_lt_of_total object ?_ ?_ ?_ ?_ ?_ ?_
  · rw [Json.isObject_insert, erased]
  · rw [Json.get?_insert_ne _ _ (by decide), Json.get?_eraseAll_of_notMem _ typing]
  · rw [not_isOpen (by decide) listed_value]
    exact fun impossible => absurd impossible (by decide)
  · rw [pendingDefaults_of_listed (List.any_eq_true.mpr ⟨"const", by decide, listed_value⟩)]
    exact Nat.zero_le _
  · exact demand_le (others _ (by decide)) (others _ (by decide))
  · have dropped := @Json.total_eraseAll_share_le (charge (demand node)) node tidy.distinct names
      bound listed
    have added := total_const_le (tidy.eraseAll names) (demand node) value
    have more := heavy (demand node) (.number limit)
    rw [Json.share_of_get? held] at dropped
    omega

theorem four_lt_charge {keyword : String}
    (size : keyword ∈ ["maxLength", "maxItems", "maxProperties"]) (demand : Nat) (value : Json) :
    4 < charge demand keyword value := by
  have heavy : cost demand keyword value = 6 := by
    simp only [List.mem_cons, List.not_mem_nil, or_false] at size
    rcases size with rfl | rfl | rfl <;> rfl
  rw [charge]
  omega

theorem emptyString_shrinks : emptyString.Shrinks := by
  intro node context tidy _ condition
  simp only [emptyString, Bool.and_eq_true] at condition
  exact shrinks_of_emptied tidy condition.1.1.2 (by decide) (by decide)
    (four_lt_charge (by decide))

theorem emptyArray_shrinks : emptyArray.Shrinks := by
  intro node context tidy _ condition
  simp only [emptyArray, Bool.and_eq_true] at condition
  exact shrinks_of_emptied tidy condition.1.1.2 (by decide) (by decide)
    (four_lt_charge (by decide))

theorem emptyObject_shrinks : emptyObject.Shrinks := by
  intro node context tidy _ condition
  simp only [emptyObject, Bool.and_eq_true] at condition
  exact shrinks_of_emptied tidy condition.1.1.1.2 (by decide) (by decide)
    (four_lt_charge (by decide))

theorem missing_length_le (known dependencies : List Json) :
    (missing known dependencies).length ≤ dependencies.length := by
  fun_induction missing known dependencies with
  | case1 => exact Nat.le_refl _
  | case2 known name rest listed ih =>
    rw [List.length_cons]
    omega
  | case3 known name rest fresh ih =>
    rw [List.length_cons, List.length_cons]
    omega
  | case4 known entry rest other ih =>
    rw [List.length_cons]
    omega

theorem share_of_dependencies {dependent : Members} {entry : Json} {name : String}
    {items : List Json} (found : dependencies? dependent entry = some (name, items))
    (extra : Nat) :
    Members.share (fun _ value => extra + itemCount value) dependent name =
      extra + items.length := by
  obtain ⟨_, present⟩ := dependencies?_eq_some.mp found
  rw [Members.share, present]
  rfl

/-- What `required` gains by closing it is lost by `dependentRequired`, and so is what the entries
    that are used up count for besides. -/
theorem closeRequired_total_le (extra : Nat) (required : List Json) (dependent : Members)
    (pending : List Json) :
    (closeRequired required dependent pending).1.length +
        Members.total (fun _ value => extra + itemCount value)
          (closeRequired required dependent pending).2 +
        (if pending.any (fun entry => (dependencies? dependent entry).isSome) then extra else 0) ≤
      required.length + Members.total (fun _ value => extra + itemCount value) dependent := by
  fun_induction closeRequired required dependent pending with
  | case1 required dependent => exact Nat.le_refl _
  | case2 required dependent entry pending name items found added ih =>
    have dropped := @Members.total_erase_share_le (fun _ value => extra + itemCount value)
      dependent name
    have gained : added.length ≤ items.length := missing_length_le required items
    rw [share_of_dependencies found extra] at dropped
    rw [List.length_append] at ih
    rw [List.any_cons, found, Option.isSome_some, Bool.true_or, if_pos rfl]
    omega
  | case3 required dependent entry pending unused ih =>
    rw [List.any_cons, unused, Option.isSome_none, Bool.false_or]
    exact ih

section Closed

variable {node : Json} {required more : List Json} {dependent fewer : Members}
  (held : node.get? "required" = some (.array required))
  (depends : node.get? "dependentRequired" = some (.object dependent))

include held depends

theorem demand_closed_le
    (closed : more.length + Members.total (fun _ value => itemCount value) fewer ≤
      required.length + Members.total (fun _ value => itemCount value) dependent) :
    demand ((node.insert "dependentRequired" (.object fewer)).insert "required" (.array more)) ≤
      demand node := by
  have object := Json.isObject_of_get? held
  have last := Json.get?_insert_self (node.insert "dependentRequired" (.object fewer))
    "required" (.array more) (by rw [Json.isObject_insert, object])
  have kept := Json.get?_insert_self node "dependentRequired" (.object fewer) object
  rw [← Json.get?_insert_ne _ (.array more) (by decide : "required" ≠ "dependentRequired")] at kept
  rw [demand, demand, Json.share_of_get? last, Json.share_of_get? kept, Json.share_of_get? held,
    Json.share_of_get? depends]
  exact closed

theorem total_closed_lt (tidy : Tidy .subschema node)
    (used : more.length + Members.total (fun _ value => 1 + itemCount value) fewer + 1 ≤
      required.length + Members.total (fun _ value => 1 + itemCount value) dependent) :
    ((node.insert "dependentRequired" (.object fewer)).insert "required" (.array more)).total
        (charge (demand node)) < node.total (charge (demand node)) := by
  have middle : (node.insert "dependentRequired" (.object fewer)).get? "required" =
      some (.array required) := by
    rw [Json.get?_insert_ne _ _ (by decide), held]
  have tidy_middle : Tidy .subschema (node.insert "dependentRequired" (.object fewer)) :=
    tidy.insert (tidy_plain (by decide) _)
  have first := @Json.total_insert_le (charge (demand node)) node tidy.distinct
    "dependentRequired" (.object fewer)
  have second := @Json.total_insert_le (charge (demand node)) _ tidy_middle.distinct
    "required" (.array more)
  rw [Json.share_of_get? depends, charge_plain (by decide), charge_plain (by decide)] at first
  rw [Json.share_of_get? middle, charge_plain (by decide), charge_plain (by decide)] at second
  have listed : cost (demand node) "required" (.array more) = 1 + more.length := rfl
  have was_listed : cost (demand node) "required" (.array required) = 1 + required.length := rfl
  have left : cost (demand node) "dependentRequired" (.object fewer) =
      1 + Members.total (fun _ names => 1 + itemCount names) fewer := rfl
  have was_left : cost (demand node) "dependentRequired" (.object dependent) =
      1 + Members.total (fun _ names => 1 + itemCount names) dependent := rfl
  omega

end Closed

theorem requiredDependencies_shrinks : requiredDependencies.Shrinks := by
  intro node context tidy _ condition
  simp only [requiredDependencies, Bool.and_eq_true] at condition ⊢
  have matched := condition.2
  split at matched
  · rename_i required dependent first second
    have held := Json.get?_of_arrayAt? first
    have depends := Json.get?_of_objectAt? second
    -- Entries count for nothing besides their names in the demand, for one each in the cost.
    have closed := closeRequired_total_le 0 required dependent required
    have used := closeRequired_total_le 1 required dependent required
    rw [matched, if_pos rfl] at used
    generalize closeRequired required dependent required = result at closed used ⊢
    obtain ⟨more, fewer⟩ := result
    simp only [Nat.zero_add, ite_self, Nat.add_zero] at closed used ⊢
    have object := Json.isObject_of_get? held
    have middle : (node.insert "dependentRequired" (.object fewer)).get? "required" =
        some (.array required) := by
      rw [Json.get?_insert_ne _ _ (by decide), held]
    refine ⟨(tidy.insert (tidy_plain (by decide) _)).insert (tidy_plain (by decide) _), ?_⟩
    have same : ∀ name, ((node.insert "dependentRequired" (.object fewer)).insert "required"
        (.array more)).contains name = node.contains name := by
      intro name
      rw [contains_insert_of_present middle, contains_insert_of_present depends]
    refine weight_lt_of_kept object ?_ ?_ (fun name _ => same name) (fun _ _ name _ => same name)
      (demand_closed_le held depends closed) (total_closed_lt held depends tidy used)
    · rw [Json.isObject_insert, Json.isObject_insert, object]
    · rw [Json.get?_insert_ne _ _ (by decide), Json.get?_insert_ne _ _ (by decide)]
  · cases matched

theorem requiredCount_shrinks : requiredCount.Shrinks := by
  intro node context tidy _ condition
  simp only [requiredCount, Bool.and_eq_true] at condition ⊢
  have matched := condition.2
  split at matched
  · rename_i minimum count least counted
    obtain ⟨old, found, rounded⟩ := Option.bind_eq_some_iff.mp least
    have present := Json.get?_of_numberAt? found
    have low := toInt_of_word? rounded
    have less := Int64.lt_iff_toInt_lt.mp (of_decide_eq_true matched)
    have enough : count.toInt ≤ demand node := by
      unfold distinctRequired? at counted
      obtain ⟨required, array, distinct⟩ := Option.bind_eq_some_iff.mp counted
      split at distinct
      · rw [toInt_of_word? distinct, demand,
          Json.share_of_get? (Json.get?_of_arrayAt? array)]
        have length : itemCount (.array required) = required.length := rfl
        omega
      · cases distinct
    simp only [counted]
    refine ⟨tidy.insert (tidy_plain (by decide) _),
      weight_insert_lt tidy present (by decide) ?_ ?_⟩
    · exact demand_le (.inl (node.get?_insert_ne _ (by decide)))
        (.inl (node.get?_insert_ne _ (by decide)))
    · rw [charge_plain (by decide), charge_plain (by decide)]
      have new : cost (demand node) "minProperties" (.number (.ofInt64 count)) =
          1 + ((demand node : Int) + 1 - count.toInt).toNat := rfl
      have was : cost (demand node) "minProperties" (.number old) =
          1 + ((demand node : Int) + 1 - old.toInt .up).toNat := rfl
      omega
  · cases matched

theorem duplicates_shrinks {name keyword vocabulary : String} (other : keyword ≠ "type")
    (dependent : keyword ≠ "dependentRequired")
    (lighter : ∀ demand values kept, Json.sortUnique values = some kept →
      kept.length < values.length → Tidy (Keyword.roleOf keyword) (.array values) →
        Tidy (Keyword.roleOf keyword) (.array kept) ∧
          charge demand keyword (.array kept) < charge demand keyword (.array values)) :
    (duplicates name keyword vocabulary).Shrinks := by
  intro node context tidy precise condition
  obtain ⟨values, found, repeated⟩ := repeated_of_condition condition
  have orderable := orderable_of_arrayAt? precise found
  obtain ⟨kept, ran⟩ : ∃ kept, Json.sortUnique values = some kept := ⟨_, Json.sortUnique_eq orderable⟩
  have fewer := Json.sortUnique_length_lt orderable repeated ran
  have present := Json.get?_of_arrayAt? found
  rw [duplicates_transform_eq found ran]
  have unique := fun demand => lighter demand values kept ran fewer (tidy.get? present)
  refine ⟨tidy.insert (unique 0).1, weight_insert_lt tidy present other ?_ (unique _).2⟩
  by_cases required : keyword = "required"
  · subst required
    have new := Json.get?_insert_self node "required" (.array kept) (Json.isObject_of_get? present)
    have same := node.get?_insert_ne (.array kept) dependent
    have count : itemCount (.array kept) = kept.length := rfl
    have was_count : itemCount (.array values) = values.length := rfl
    simp only [demand, Json.share, new, present, same, Option.map_some, Option.getD_some]
    omega
  · exact demand_le (.inl (node.get?_insert_ne _ required))
      (.inl (node.get?_insert_ne _ dependent))

theorem duplicateBranches_shrinks {name keyword vocabulary : String} (other : keyword ≠ "type")
    (dependent : keyword ≠ "dependentRequired")
    (list : Keyword.roleOf keyword = .subschemaList)
    (unit : ∀ demand value, cost demand keyword value = 1) :
    (duplicates name keyword vocabulary).Shrinks := by
  refine duplicates_shrinks other dependent fun demand values kept ran fewer tidy => ⟨?_, ?_⟩
  · rw [list, Tidy, tidyItems_iff] at tidy ⊢
    exact fun item member => tidy item (Json.mem_of_mem_sortUnique ran member)
  · obtain ⟨sorted, perm, sublist⟩ := Json.sortUnique_subperm ran
    have lighter := itemWeights_sublist sublist
    have same := itemWeights_perm perm
    have length := perm.length_eq
    rw [charge, charge, list, unit, unit, weight, weight]
    omega

theorem duplicateValues_shrinks {name keyword vocabulary : String} (other : keyword ≠ "type")
    (dependent : keyword ≠ "dependentRequired")
    (plain : keyword ∈ Keyword.plain)
    (counts : ∀ demand value, cost demand keyword value = 1 + itemCount value) :
    (duplicates name keyword vocabulary).Shrinks := by
  refine duplicates_shrinks other dependent fun demand values kept _ fewer _ =>
    ⟨tidy_plain plain _, ?_⟩
  have count : itemCount (.array kept) = kept.length := rfl
  have was_count : itemCount (.array values) = values.length := rfl
  rw [charge_plain plain, charge_plain plain, counts, counts]
  omega

theorem integralBound_shrinks {name keyword : String} {rounding : Rounding}
    (plain : keyword ∈ Keyword.plain)
    (others : keyword ≠ "type" ∧ keyword ≠ "required" ∧ keyword ≠ "dependentRequired")
    (counts : ∀ demand value, cost demand keyword value =
      if value.number?.any (!·.isIntegral) then 2 else 1) :
    (integralBound name keyword rounding).Shrinks := by
  intro node context tidy _ condition
  simp only [integralBound, Bool.and_eq_true] at condition ⊢
  cases found : node.numberAt? keyword with
  | none =>
    rw [found] at condition
    cases condition.2
  | some value =>
    rw [found, Option.any_some, Bool.not_eq_true'] at condition
    have present := Json.get?_of_numberAt? found
    dsimp only
    refine ⟨tidy.insert (tidy_plain plain _), weight_insert_lt tidy present others.1 ?_ ?_⟩
    · exact demand_le (.inl (node.get?_insert_ne _ others.2.1))
        (.inl (node.get?_insert_ne _ others.2.2))
    · have whole : (value.round rounding).isIntegral = true := by
        rw [Number.round_eq condition.2]
        rfl
      rw [charge_plain plain, charge_plain plain, counts, counts]
      simp only [Json.number?, Option.any_some, condition.2, whole]
      decide

theorem rules_shrink : ∀ rule ∈ rules, rule.Shrinks := by
  simp only [rules, List.forall_mem_cons]
  exact ⟨singleType_shrinks, constInEnum_shrinks, equalBounds_shrinks, emptyString_shrinks,
    emptyArray_shrinks, emptyObject_shrinks, requiredDependencies_shrinks, requiredCount_shrinks,
    duplicateBranches_shrinks (by decide) (by decide) (by decide) (fun _ _ => rfl),
    duplicateBranches_shrinks (by decide) (by decide) (by decide) (fun _ _ => rfl),
    duplicateValues_shrinks (by decide) (by decide) (by decide) (fun _ _ => rfl),
    duplicateValues_shrinks (by decide) (by decide) (by decide) (fun _ _ => rfl),
    integralBound_shrinks (by decide) (by decide) (fun _ _ => rfl),
    integralBound_shrinks (by decide) (by decide) (fun _ _ => rfl),
    List.forall_mem_nil _⟩

end Collapse

end SchemaPack
