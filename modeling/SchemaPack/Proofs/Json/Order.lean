import SchemaPack.Json.Order
import SchemaPack.Proofs.Sorting.Runs

namespace SchemaPack

theorem Number.compare_self (a : Number) : a.compare a = .eq := by
  cases a with
  | integer | real => exact @Std.ReflCmp.compare_self Int Ord.compare _ _

theorem Number.compare_swap (a b : Number) : b.compare a = (a.compare b).swap := by
  cases a with
  | integer => cases b with
    | integer | real => exact @Std.OrientedCmp.eq_swap Int Ord.compare _ _ _
  | real => cases b with
    | integer | real => exact @Std.OrientedCmp.eq_swap Int Ord.compare _ _ _

namespace Json

theorem rank_eq_of_compareSorted {a b : Json} (h : compareSorted a b = .eq) :
    a.rank = b.rank := by
  unfold compareSorted at h
  split at h
  · rfl
  · rfl
  · rfl
  · rfl
  · rfl
  · rfl
  · exact Std.compare_eq_iff_eq.mp h

/-- Two values of one kind. -/
inductive Kindred : Json → Json → Prop where
  | null : Kindred .null .null
  | bool (x y : Bool) : Kindred (.bool x) (.bool y)
  | number (x y : Number) : Kindred (.number x) (.number y)
  | string (x y : String) : Kindred (.string x) (.string y)
  | array (items others : List Json) : Kindred (.array items) (.array others)
  | object (members others : Members) : Kindred (.object members) (.object others)

theorem kindred_of_rank {a b : Json} (ranks : a.rank = b.rank) : Kindred a b := by
  cases a with
  | null => cases b with
    | null => exact .null
    | bool | number | string | array | object => cases ranks
  | bool => cases b with
    | bool => exact .bool _ _
    | null | number | string | array | object => cases ranks
  | number => cases b with
    | number => exact .number _ _
    | null | bool | string | array | object => cases ranks
  | string => cases b with
    | string => exact .string _ _
    | null | bool | number | array | object => cases ranks
  | array => cases b with
    | array => exact .array _ _
    | null | bool | number | string | object => cases ranks
  | object => cases b with
    | object => exact .object _ _
    | null | bool | number | string | array => cases ranks

theorem compareSorted_of_rank_ne {a b : Json} (apart : a.rank ≠ b.rank) :
    compareSorted a b = Ord.compare a.rank b.rank := by
  unfold compareSorted
  split
  · exact absurd rfl apart
  · exact absurd rfl apart
  · exact absurd rfl apart
  · exact absurd rfl apart
  · exact absurd rfl apart
  · exact absurd rfl apart
  · rfl

mutual

theorem compareSorted_self (a : Json) : compareSorted a a = .eq := by
  cases a with
  | null => rfl
  | bool x => exact @Std.ReflCmp.compare_self Bool Ord.compare _ x
  | number x => exact x.compare_self
  | string x => exact @Std.ReflCmp.compare_self String Ord.compare _ x
  | array items => exact compareItems_self items
  | object entries => exact compareEntries_self entries

theorem compareItems_self (items : List Json) : compareItems items items = .eq := by
  match items with
  | [] => rfl
  | a :: as =>
    rw [compareItems, compareSorted_self a, compareItems_self as]
    rfl

theorem compareEntries_self (entries : List (String × Json)) :
    compareEntries entries entries = .eq := by
  match entries with
  | [] => rfl
  | (n, a) :: as =>
    rw [compareEntries, compareSorted_self a, compareEntries_self as,
      @Std.ReflCmp.compare_self String Ord.compare _ n]
    rfl

end

mutual

theorem compareSorted_swap (a b : Json) : compareSorted b a = (compareSorted a b).swap := by
  by_cases ranks : a.rank = b.rank
  · have kindred := kindred_of_rank ranks
    cases a with
    | null =>
      cases kindred
      rfl
    | bool x =>
      cases kindred with
      | bool _ y => exact @Std.OrientedCmp.eq_swap Bool Ord.compare _ y x
    | number x =>
      cases kindred with
      | number _ y => exact x.compare_swap y
    | string x =>
      cases kindred with
      | string _ y => exact @Std.OrientedCmp.eq_swap String Ord.compare _ y x
    | array items =>
      cases kindred with
      | array _ others => exact compareItems_swap items others
    | object entries =>
      cases kindred with
      | object _ others => exact compareEntries_swap entries others
  · rw [compareSorted_of_rank_ne ranks, compareSorted_of_rank_ne (Ne.symm ranks)]
    exact @Std.OrientedCmp.eq_swap Nat Ord.compare _ b.rank a.rank

theorem compareItems_swap (items others : List Json) :
    compareItems others items = (compareItems items others).swap := by
  match items, others with
  | [], [] => rfl
  | [], _ :: _ => rfl
  | _ :: _, [] => rfl
  | a :: as, b :: bs =>
    rw [compareItems, compareItems, compareSorted_swap a b, compareItems_swap as bs,
      Ordering.swap_then]

theorem compareEntries_swap (entries others : List (String × Json)) :
    compareEntries others entries = (compareEntries entries others).swap := by
  match entries, others with
  | [], [] => rfl
  | [], _ :: _ => rfl
  | _ :: _, [] => rfl
  | (n, a) :: as, (m, b) :: bs =>
    have names : Ord.compare m n = (Ord.compare n m).swap := Std.OrientedCmp.eq_swap
    rw [compareEntries, compareEntries, names, compareSorted_swap a b, compareEntries_swap as bs,
      Ordering.swap_then, Ordering.swap_then]

end

theorem rank_sortMembers (value : Json) : value.sortMembers.rank = value.rank := by
  cases value <;> rfl

theorem kindred_of_compare {a b : Json} (same : compare a b = .eq) : Kindred a b := by
  apply kindred_of_rank
  rw [← rank_sortMembers a, ← rank_sortMembers b]
  exact rank_eq_of_compareSorted same

theorem compare_self (a : Json) : compare a a = .eq := compareSorted_self _

theorem compare_swap (a b : Json) : compare b a = (compare a b).swap := compareSorted_swap _ _

theorem equal_self (a : Json) : a.equal a = true := by
  rw [equal, compare_self]
  rfl

theorem equal_comm {a b : Json} (h : a.equal b = true) : b.equal a = true := by
  unfold equal at h ⊢
  rw [compare_swap a b, beq_iff_eq.mp h]
  rfl

theorem dropRepeats_sublist (last : Json) (values : List Json) :
    (dropRepeats last values).Sublist values := by
  induction values generalizing last with
  | nil => exact List.Sublist.refl _
  | cons value rest ih =>
    rw [dropRepeats]
    split
    · exact (ih last).cons value
    · exact (ih value).cons_cons value

theorem dropRepeats_length_lt {last : Json} {values : List Json}
    (repeated : ((last :: values).zip values).any (fun pair => pair.1.equal pair.2) = true) :
    (dropRepeats last values).length < values.length := by
  induction values generalizing last with
  | nil => cases repeated
  | cons value rest ih =>
    rw [dropRepeats]
    split
    · have le := (dropRepeats_sublist last rest).length_le
      rw [List.length_cons]
      omega
    · rename_i kept
      rw [List.zip_cons_cons, List.any_cons, Bool.or_eq_true] at repeated
      rcases repeated with here | later
      · exact absurd (equal_comm here) kept
      · have lt := ih later
        rw [List.length_cons, List.length_cons]
        omega

theorem unrepeated_sublist (values : List Json) : (unrepeated values).Sublist values := by
  cases values with
  | nil => exact .slnil
  | cons first rest => exact (dropRepeats_sublist first rest).cons_cons first

theorem unrepeated_length_lt {values : List Json} (repeated : repeats values = true) :
    (unrepeated values).length < values.length := by
  cases values with
  | nil => cases repeated
  | cons first rest => exact Nat.succ_lt_succ (dropRepeats_length_lt repeated)

theorem exists_mem_dropRepeats {last value : Json} {values : List Json} (member : value ∈ values) :
    ∃ kept ∈ last :: dropRepeats last values, value.equal kept = true := by
  induction values generalizing last with
  | nil => cases member
  | cons first rest ih =>
    rw [dropRepeats]
    split
    · rename_i repeated
      rcases List.mem_cons.mp member with rfl | later
      · exact ⟨last, List.mem_cons_self, repeated⟩
      · exact ih later
    · rcases List.mem_cons.mp member with rfl | later
      · exact ⟨value, List.mem_cons_of_mem _ List.mem_cons_self, equal_self value⟩
      · obtain ⟨kept, listed, same⟩ := @ih first later
        exact ⟨kept, List.mem_cons_of_mem _ listed, same⟩

theorem exists_mem_unrepeated {value : Json} {values : List Json} (member : value ∈ values) :
    ∃ kept ∈ unrepeated values, value.equal kept = true := by
  cases values with
  | nil => cases member
  | cons first rest =>
    rcases List.mem_cons.mp member with rfl | later
    · exact ⟨value, List.mem_cons_self, equal_self value⟩
    · exact exists_mem_dropRepeats later

section Sorted

variable {moved : Sorting.Moved} {values sorted kept : List Json}

theorem map_getD_range (values : List Json) :
    (List.range values.length).map (values.getD · .null) = values := by
  refine List.ext_getElem (by rw [List.length_map, List.length_range]) fun i _ inside => ?_
  rw [List.getElem_map, List.getElem_range, List.getD_eq_getElem?_getD,
    List.getElem?_eq_getElem inside]
  rfl

theorem sort_perm (ran : sort moved values = some sorted) : sorted.Perm values := by
  obtain ⟨places, ordered, rfl⟩ := Option.map_eq_some_iff.mp ran
  have arranged := (Sorting.order_perm ordered).map (values.getD · .null)
  rwa [map_getD_range] at arranged

theorem sortUnique_subperm (ran : sortUnique values = some kept) :
    ∃ sorted, sorted.Perm values ∧ kept.Sublist sorted := by
  obtain ⟨sorted, ordered, rfl⟩ := Option.map_eq_some_iff.mp ran
  exact ⟨sorted, sort_perm ordered, unrepeated_sublist sorted⟩

theorem mem_of_mem_sortUnique (ran : sortUnique values = some kept) {value : Json}
    (member : value ∈ kept) : value ∈ values := by
  obtain ⟨sorted, perm, sublist⟩ := sortUnique_subperm ran
  exact perm.mem_iff.mp (sublist.subset member)

theorem exists_mem_sortUnique (ran : sortUnique values = some kept) {value : Json}
    (member : value ∈ values) : ∃ other ∈ kept, value.equal other = true := by
  obtain ⟨sorted, ordered, rfl⟩ := Option.map_eq_some_iff.mp ran
  exact exists_mem_unrepeated ((sort_perm ordered).mem_iff.mpr member)

/-- Values in the order that sorting puts them in if it is clear, or if they are few. -/
def inserted (values : List Json) : List Json :=
  (insertionSort (comparePlaces values) (List.range values.length)).map (values.getD · .null)

theorem inserted_perm (values : List Json) : (inserted values).Perm values := by
  have arranged := (insertionSort_perm (comparePlaces values) (List.range values.length)).map
    (values.getD · .null)
  rwa [map_getD_range] at arranged

/-- Few values, or values in an order: comparison is transitive on them. -/
def Orderable (values : List Json) : Prop :=
  values.length ≤ 20 ∨ ∀ a ∈ values, ∀ b ∈ values, ∀ c ∈ values,
    (compare a b).isLE = true → (compare b c).isLE = true → (compare a c).isLE = true

instance : DecidablePred Orderable := fun values =>
  inferInstanceAs (Decidable (values.length ≤ 20 ∨ ∀ a ∈ values, ∀ b ∈ values, ∀ c ∈ values,
    (compare a b).isLE = true → (compare b c).isLE = true → (compare a c).isLE = true))

theorem compare_null_isLE (a : Json) : (compare .null a).isLE = true := by
  cases a with
  | null | bool | number | string | array | object => rfl

theorem eq_null_of_isLE {a : Json} (under : (compare a .null).isLE = true) : a = .null := by
  cases a with
  | null => rfl
  | bool | number | string | array | object => cases under

/-- Places outside the list hold the least value, so they do not get in the way of an order. -/
theorem transCmp_comparePlaces
    (ordered : ∀ a ∈ values, ∀ b ∈ values, ∀ c ∈ values, (compare a b).isLE = true →
      (compare b c).isLE = true → (compare a c).isLE = true) :
    Std.TransCmp (comparePlaces values) where
  eq_swap {i j} := compare_swap (values.getD j .null) (values.getD i .null)
  isLE_trans {i j k} first second := by
    have place (i : Nat) : values.getD i .null ∈ values ∨ values.getD i .null = .null := by
      rw [List.getD_eq_getElem?_getD]
      cases found : values[i]? with
      | none => exact .inr rfl
      | some value => exact .inl (List.mem_of_getElem? found)
    unfold comparePlaces at *
    rcases place k with inC | isNull
    · rcases place j with inB | isNull
      · rcases place i with inA | isNull
        · exact ordered _ inA _ inB _ inC first second
        · rw [isNull]
          exact compare_null_isLE _
      · rw [isNull] at first
        rw [eq_null_of_isLE first]
        exact compare_null_isLE _
    · rw [isNull] at second
      rw [eq_null_of_isLE second] at first
      rw [eq_null_of_isLE first]
      exact compare_null_isLE _

theorem inserted_ascending
    (ordered : ∀ a ∈ values, ∀ b ∈ values, ∀ c ∈ values, (compare a b).isLE = true →
      (compare b c).isLE = true → (compare a c).isLE = true) :
    (inserted values).Pairwise fun a b => compare a b ≠ .gt := by
  have := transCmp_comparePlaces ordered
  have sorted := @Sorting.insertionSort_ascending _ (comparePlaces values) _
    (List.range values.length)
  exact List.pairwise_map.mpr (sorted.imp Ordering.isLE_iff_ne_gt.mp)

theorem sort_eq (orderable : Orderable values) (moved : Sorting.Moved) :
    sort moved values = some (inserted values) := by
  have ordered : Sorting.order moved (comparePlaces values) values.length =
      some (insertionSort (comparePlaces values) (List.range values.length)) := by
    rcases orderable with few | transitive
    · rw [Sorting.order, Sorting.stableSort, List.length_range, if_pos few]
    · have := transCmp_comparePlaces transitive
      exact Sorting.order_eq moved values.length
  rw [sort, ordered]
  rfl

theorem hasDuplicates_eq (orderable : Orderable values) :
    hasDuplicates values = some (repeats (inserted values)) := by
  rw [hasDuplicates, sort_eq orderable]
  rfl

theorem sortUnique_eq (orderable : Orderable values) :
    sortUnique values = some (unrepeated (inserted values)) := by
  rw [sortUnique, sort_eq orderable]
  rfl

theorem sortUnique_length_lt (orderable : Orderable values)
    (repeated : hasDuplicates values = some true) (ran : sortUnique values = some kept) :
    kept.length < values.length := by
  rw [hasDuplicates_eq orderable] at repeated
  rw [sortUnique_eq orderable] at ran
  obtain rfl := Option.some.inj ran
  rw [← (inserted_perm values).length_eq]
  exact unrepeated_length_lt (Option.some.inj repeated)

end Sorted

end Json

end SchemaPack
