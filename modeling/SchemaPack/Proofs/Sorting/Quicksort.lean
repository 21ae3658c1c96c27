import SchemaPack.Proofs.Sorting.Merging

namespace SchemaPack.Sorting

variable {α : Type} {compare : α → α → Ordering} {before : α → α → Prop}

section Networks

theorem pair_perm (a b : α) : (pair compare a b).Perm [a, b] := by
  unfold pair
  split
  · exact List.Perm.swap a b []
  · exact List.Perm.refl _

theorem mergePairs_perm (a b c d : α) : (mergePairs compare a b c d).Perm [a, b, c, d] := by
  classical
  refine List.perm_iff_count.mpr fun x => ?_
  have counts (y z : α) := (@pair_perm _ compare y z).count_eq x
  unfold mergePairs
  split
  · simp only [List.count_cons, List.count_append, List.count_nil, counts b c]
    omega
  · simp only [List.count_cons, List.count_append, List.count_nil, counts c d]
    omega
  · simp only [List.count_cons, List.count_append, List.count_nil, counts a b]
    omega
  · simp only [List.count_cons, List.count_append, List.count_nil, counts a d]
    omega

theorem four_perm (p q r s : α) : (four compare p q r s).Perm [p, q, r, s] := by
  unfold four
  cases less compare q p <;> cases less compare s r
  · exact mergePairs_perm p q r s
  · exact (mergePairs_perm p q s r).trans (((List.Perm.swap r s []).cons q).cons p)
  · exact (mergePairs_perm q p r s).trans (List.Perm.swap p q [r, s])
  · exact (mergePairs_perm q p s r).trans
      ((List.Perm.swap p q [s, r]).trans (((List.Perm.swap r s []).cons q).cons p))

theorem pairwise_four (trans : ∀ a b c, before a b → before b c → before a c) {a b c d : α}
    (first : before a b) (second : before b c) (third : before c d) :
    [a, b, c, d].Pairwise before := by
  have across := trans a b c first second
  have later := trans b c d second third
  simp only [List.pairwise_cons, List.mem_cons, List.not_mem_nil, or_false, forall_eq_or_imp,
    forall_eq]
  exact ⟨⟨first, across, trans a b d first later⟩, ⟨second, later⟩, third, nofun, List.Pairwise.nil⟩

theorem pair_of_before (refines : Refines before compare) {a b : α} (order : before a b) :
    pair compare a b = [a, b] := by
  unfold pair
  rw [if_neg]
  exact fun less => refines.asymm order (refines.of_lt (beq_iff_eq.mp less))

theorem mergePairs_pairwise (refines : Refines before compare) {a b c d : α} (ab : before a b)
    (cd : before c d) (ac : Guides compare before a c) (ad : Guides compare before a d)
    (bc : Guides compare before b c) (bd : Guides compare before b d) :
    (mergePairs compare a b c d).Pairwise before := by
  unfold Guides at ac ad bc bd
  unfold mergePairs
  split
  · rename_i lowest highest
    rw [lowest] at ac
    rw [highest] at bd
    unfold pair
    split
    · rename_i less
      rw [if_pos less] at bc
      exact pairwise_four refines.trans ac bc bd
    · rename_i less
      rw [if_neg less] at bc
      exact pairwise_four refines.trans ab bc cd
  · rename_i lowest highest
    rw [lowest] at ac
    rw [highest] at bd
    rw [pair_of_before refines cd]
    exact pairwise_four refines.trans ac cd bd
  · rename_i lowest highest
    rw [lowest] at ac
    rw [highest] at bd
    rw [pair_of_before refines ab]
    exact pairwise_four refines.trans ac ab bd
  · rename_i lowest highest
    rw [lowest] at ac
    rw [highest] at bd
    unfold pair
    split
    · rename_i less
      rw [if_pos less] at ad
      exact pairwise_four refines.trans cd ad ab
    · rename_i less
      rw [if_neg less] at ad
      exact pairwise_four refines.trans ac ad bd

theorem four_pairwise (refines : Refines before compare) {p q r s : α}
    (guided : [p, q, r, s].Pairwise (Guides compare before)) :
    (four compare p q r s).Pairwise before := by
  simp only [List.pairwise_cons, List.mem_cons, List.not_mem_nil, or_false, forall_eq_or_imp,
    forall_eq] at guided
  obtain ⟨⟨pq, pr, ps⟩, ⟨qr, qs⟩, rs, -⟩ := guided
  unfold four
  cases first : less compare q p <;> cases second : less compare s r
  all_goals
    rw [Guides, first] at pq
    rw [Guides, second] at rs
  · exact mergePairs_pairwise refines pq rs pr ps qr qs
  · exact mergePairs_pairwise refines pq rs ps pr qs qr
  · exact mergePairs_pairwise refines pq rs qr qs pr ps
  · exact mergePairs_pairwise refines pq rs qs qr ps pr

theorem network_perm : Permutes (network compare) := by
  intro xs sorted ran
  unfold network at ran
  split at ran
  · obtain rfl := Option.some.inj ran
    exact four_perm _ _ _ _
  · exact (mergeBothWays_perm ran).trans ((four_perm _ _ _ _).append (four_perm _ _ _ _))
  · obtain rfl := Option.some.inj ran
    exact List.Perm.refl _

theorem Guides.of_perm {left right lefts rights : List α}
    (guided : (left ++ right).Pairwise (Guides compare before)) (first : lefts.Perm left)
    (second : rights.Perm right) : ∀ l ∈ lefts, ∀ r ∈ rights, Guides compare before l r :=
  fun l inLeft r inRight => (List.pairwise_append.mp guided).2.2 l (first.mem_iff.mp inLeft) r
    (second.mem_iff.mp inRight)

theorem network_arranges (refines : Refines before compare) {xs : List α}
    (size : xs.length ≤ 1 ∨ xs.length = 4 ∨ xs.length = 8)
    (guided : xs.Pairwise (Guides compare before)) : Arranges before (network compare xs) := by
  unfold network
  split
  · exact ⟨_, rfl, four_pairwise refines guided⟩
  · rename_i a b c d e f g h
    have halves : ([a, b, c, d] ++ [e, f, g, h]).Pairwise (Guides compare before) := guided
    obtain ⟨first, second, -⟩ := List.pairwise_append.mp halves
    have left := @four_perm _ compare a b c d
    have right := @four_perm _ compare e f g h
    refine mergeBothWays_arranges refines ?_ ?_ (Guides.of_perm halves left right)
      (four_pairwise refines first) (four_pairwise refines second)
    · rw [left.length_eq, right.length_eq]
      exact Nat.le_refl 4
    · rw [left.length_eq, right.length_eq]
      exact Nat.le_succ 4
  · rename_i notFour notEight
    refine ⟨_, rfl, ?_⟩
    rcases size with short | size | size
    · match xs, short with
      | [], _ => exact List.Pairwise.nil
      | [x], _ => exact List.pairwise_singleton _ x
    · match xs, size with
      | [a, b, c, d], _ => exact absurd rfl (notFour a b c d)
    · match xs, size with
      | [a, b, c, d, e, f, g, h], _ => exact absurd rfl (notEight a b c d e f g h)

end Networks

section SmallSort

theorem sortHalf_perm (size : Nat) : Permutes (sortHalf compare size) := by
  intro half sorted ran
  obtain ⟨start, started, result⟩ := Option.bind_eq_some_iff.mp ran
  obtain rfl := Option.some.inj result
  have whole := ((network_perm started).append_right (half.drop size))
  rw [List.take_append_drop] at whole
  exact (insertAll_perm compare start (half.drop size)).trans whole

def Fits (size length : Nat) : Prop := size = 1 ∨ size ≤ length ∧ (size = 4 ∨ size = 8)

theorem sortHalf_arranges (refines : Refines before compare) {size : Nat} {half : List α}
    (fits : Fits size half.length) (guided : half.Pairwise (Guides compare before)) :
    Arranges before (sortHalf compare size half) := by
  rw [← List.take_append_drop size half] at guided
  have length : (half.take size).length ≤ 1 ∨ (half.take size).length = 4 ∨
      (half.take size).length = 8 := by
    rw [List.length_take]
    rcases fits with rfl | ⟨fits, rfl | rfl⟩ <;> omega
  obtain ⟨start, started, arranged⟩ :=
    network_arranges refines length (List.pairwise_append.mp guided).1
  refine ⟨insertAll compare start (half.drop size), ?_,
    insertAll_pairwise refines.trans arranged (List.pairwise_append.mpr ⟨?_, ?_, ?_⟩)⟩
  · rw [sortHalf, started]
    rfl
  · exact arranged.imp refines.guides
  · exact (List.pairwise_append.mp guided).2.1
  · exact Guides.of_perm guided (network_perm started) (List.Perm.refl _)

theorem smallSort_perm (moved : Moved) : Permutes (smallSort compare moved) := by
  intro xs sorted ran
  obtain ⟨left, leftRan, ran⟩ := Option.bind_eq_some_iff.mp ran
  obtain ⟨right, rightRan, ran⟩ := Option.bind_eq_some_iff.mp ran
  have halves := (sortHalf_perm _ leftRan).append (sortHalf_perm _ rightRan)
  rw [List.take_append_drop] at halves
  exact (mergeBothWays_perm ran).trans halves

theorem Moved.networkSize_fits (moved : Moved) {length half : Nat} (lower : length / 2 ≤ half) :
    Fits (moved.networkSize length) half := by
  unfold networkSize
  split
  · exact .inr ⟨by omega, .inr rfl⟩
  · split
    · exact .inr ⟨by omega, .inl rfl⟩
    · exact .inl rfl

theorem smallSort_sorts (refines : Refines before compare) (moved : Moved) :
    Sorts before compare (smallSort compare moved) := by
  intro xs guided
  have lefts : (xs.take (xs.length / 2)).length = xs.length / 2 := by
    rw [List.length_take]
    omega
  have rights : (xs.drop (xs.length / 2)).length = xs.length - xs.length / 2 := List.length_drop
  rw [← List.take_append_drop (xs.length / 2) xs] at guided
  obtain ⟨first, second, -⟩ := List.pairwise_append.mp guided
  obtain ⟨left, leftRan, leftSorted⟩ := sortHalf_arranges refines
    (@Moved.networkSize_fits moved xs.length _ (by omega)) first
  obtain ⟨right, rightRan, rightSorted⟩ := sortHalf_arranges refines
    (@Moved.networkSize_fits moved xs.length _ (by omega)) second
  have leftPerm := sortHalf_perm _ leftRan
  have rightPerm := sortHalf_perm _ rightRan
  obtain ⟨merged, mergedRan, arranged⟩ := mergeBothWays_arranges refines
    (by rw [leftPerm.length_eq, rightPerm.length_eq]; omega)
    (by rw [leftPerm.length_eq, rightPerm.length_eq]; omega)
    (Guides.of_perm guided leftPerm rightPerm) leftSorted rightSorted
  refine ⟨merged, ?_, arranged⟩
  rw [smallSort, leftRan]
  dsimp only [bind, Option.bind]
  rw [rightRan]
  exact mergedRan

end SmallSort

section Quicksort

theorem quicksort_perm {moved : Moved} {fallback : List α → Option (List α)}
    (permutes : Permutes fallback) (divisions : Nat) (least : Option α) :
    Permutes (quicksort compare moved fallback divisions least) := by
  intro xs sorted ran
  induction divisions generalizing least xs sorted with
  | zero =>
    cases xs with
    | nil =>
      obtain rfl := Option.some.inj ran
      exact List.Perm.refl _
    | cons first rest =>
      rw [quicksort] at ran
      split at ran
      · exact smallSort_perm _ ran
      · exact permutes ran
  | succ divisions ih =>
    cases xs with
    | nil =>
      obtain rfl := Option.some.inj ran
      exact List.Perm.refl _
    | cons first rest =>
      rw [quicksort] at ran
      dsimp only at ran
      split at ran
      · exact smallSort_perm _ ran
      · split at ran
        · obtain ⟨above, aboveRan, result⟩ := Option.bind_eq_some_iff.mp ran
          obtain rfl := Option.some.inj result
          refine ((ih _ aboveRan).append_left _).trans ?_
          refine List.perm_append_comm.trans ?_
          exact List.filter_append_perm _ _
        · obtain ⟨below, belowRan, ran⟩ := Option.bind_eq_some_iff.mp ran
          obtain ⟨others, othersRan, result⟩ := Option.bind_eq_some_iff.mp ran
          obtain rfl := Option.some.inj result
          exact ((ih _ belowRan).append (ih _ othersRan)).trans (List.filter_append_perm _ _)

variable [Std.TransCmp compare]

theorem not_less_of_floor {floor pivot x : α} (under : less compare floor pivot = false)
    (here : less compare x floor = false) : less compare x pivot = false :=
  less_eq_false_iff.mpr
    (Std.TransCmp.isLE_trans (less_eq_false_iff.mp under) (less_eq_false_iff.mp here))

theorem filter_equal_pairwise {pivot : α} {xs : List α}
    (lowest : ∀ x ∈ xs, less compare x pivot = false)
    (guided : xs.Pairwise (Guides compare before)) :
    (xs.filter (!less compare pivot ·)).Pairwise before := by
  refine (guided.filter _).imp_of_mem fun {x y} first second here => ?_
  obtain ⟨-, upper⟩ := List.mem_filter.mp first
  obtain ⟨listed, -⟩ := List.mem_filter.mp second
  have stays : less compare y x = false := less_eq_false_iff.mpr (Std.TransCmp.isLE_trans
    (less_eq_false_iff.mp ((Bool.not_eq_true' _).mp upper)) (less_eq_false_iff.mp (lowest y listed)))
  rw [Guides, stays] at here
  exact here

/-- Nothing is less than a pivot that equals an earlier one, or where nothing is found to be. -/
theorem lowest_of_divides {least : Option α} {pivot : α} {xs : List α}
    (floor : ∀ p ∈ least, ∀ x ∈ xs, less compare x p = false)
    (divides : (least.any (!less compare · pivot) || (xs.filter (less compare · pivot)).isEmpty) =
      true) : ∀ x ∈ xs, less compare x pivot = false := by
  intro x inside
  rcases Bool.or_eq_true_iff.mp divides with known | none
  · cases least with
    | none => cases known
    | some p =>
      exact not_less_of_floor ((Bool.not_eq_true' _).mp known) (floor p rfl x inside)
  · exact Bool.not_eq_true _ ▸ List.filter_eq_nil_iff.mp (List.isEmpty_iff.mp none) x inside

section Division

variable (refines : Refines before compare) {pivot : α} {xs : List α}

include refines

theorem arranges_of_equal {sort : List α → Option (List α)} (permutes : Permutes sort)
    (lowest : ∀ x ∈ xs, less compare x pivot = false)
    (guided : xs.Pairwise (Guides compare before))
    (sorted : Arranges before (sort (xs.filter (less compare pivot ·)))) :
    Arranges before do
      return xs.filter (!less compare pivot ·) ++ (← sort (xs.filter (less compare pivot ·))) := by
  obtain ⟨above, ran, arranged⟩ := sorted
  rw [ran]
  refine ⟨_, rfl, List.pairwise_append.mpr
    ⟨filter_equal_pairwise lowest guided, arranged, ?_⟩⟩
  intro x equal y greater
  have upper := (List.mem_filter.mp equal).2
  have listed := (permutes ran).mem_iff.mp greater
  exact refines.of_lt (Std.TransCmp.lt_of_isLE_of_lt
    (less_eq_false_iff.mp ((Bool.not_eq_true' _).mp upper))
    (beq_iff_eq.mp (List.mem_filter.mp listed).2))

theorem arranges_of_halves {first second : List α → Option (List α)}
    (permutes : Permutes first) (also : Permutes second)
    (sorted : Arranges before (first (xs.filter (less compare · pivot))))
    (others : Arranges before (second (xs.filter (!less compare · pivot)))) :
    Arranges before do
      return (← first (xs.filter (less compare · pivot))) ++
        (← second (xs.filter (!less compare · pivot))) := by
  obtain ⟨below, ran, arranged⟩ := sorted
  obtain ⟨above, runs, arranges⟩ := others
  rw [ran, runs]
  refine ⟨below ++ above, rfl, List.pairwise_append.mpr ⟨arranged, arranges, ?_⟩⟩
  intro x less y notLess
  have lower := (permutes ran).mem_iff.mp less
  have upper := (also runs).mem_iff.mp notLess
  exact refines.of_lt (Std.TransCmp.lt_of_lt_of_isLE
    (beq_iff_eq.mp (List.mem_filter.mp lower).2)
    (less_eq_false_iff.mp ((Bool.not_eq_true' _).mp (List.mem_filter.mp upper).2)))

end Division

theorem quicksort_arranges (refines : Refines before compare) {moved : Moved}
    {fallback : List α → Option (List α)}
    (permutes : Permutes fallback) (sorts : Sorts before compare fallback)
    {divisions : Nat} {least : Option α} {xs : List α}
    (floor : ∀ p ∈ least, ∀ x ∈ xs, less compare x p = false)
    (guided : xs.Pairwise (Guides compare before)) :
    Arranges before (quicksort compare moved fallback divisions least xs) := by
  induction divisions generalizing least xs with
  | zero =>
    cases xs with
    | nil => exact ⟨[], rfl, List.Pairwise.nil⟩
    | cons first rest =>
      rw [quicksort]
      split
      · exact smallSort_sorts refines _ _ guided
      · exact sorts _ guided
  | succ divisions ih =>
    cases xs with
    | nil => exact ⟨[], rfl, List.Pairwise.nil⟩
    | cons first rest =>
      rw [quicksort]
      dsimp only
      split
      · exact smallSort_sorts refines _ _ guided
      · generalize pivotFrom compare ((first :: rest).getD · first) 0
          ((first :: rest).length / 8) = pivot
        have part (test : α → Bool) := guided.sublist (@List.filter_sublist _ test _)
        split
        · rename_i divides
          exact arranges_of_equal refines (quicksort_perm permutes _ _)
            (lowest_of_divides floor divides) guided (ih nofun (part _))
        · refine arranges_of_halves refines (quicksort_perm permutes _ _)
            (quicksort_perm permutes _ _) (ih ?_ (part _)) (ih ?_ (part _))
          · exact fun p isLeast x inside => floor p isLeast x (List.mem_filter.mp inside).1
          · -- what is not less than the pivot has it for a floor in later divisions
            intro p isPivot x inside
            obtain rfl := Option.some.inj isPivot
            exact (Bool.not_eq_true' _).mp (List.mem_filter.mp inside).2

end Quicksort

end SchemaPack.Sorting
