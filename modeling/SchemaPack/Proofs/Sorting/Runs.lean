import SchemaPack.Proofs.Sorting.Quicksort

namespace SchemaPack.Sorting

variable {α : Type} {compare : α → α → Ordering} {before : α → α → Prop} {moved : Moved}

theorem Guides.pairwise_append (refines : Refines before compare) {xs sorted rest : List α}
    (guided : (xs ++ rest).Pairwise (Guides compare before)) (perm : sorted.Perm xs)
    (arranged : sorted.Pairwise before) : (sorted ++ rest).Pairwise (Guides compare before) :=
  List.pairwise_append.mpr ⟨arranged.imp refines.guides, (List.pairwise_append.mp guided).2.1,
    Guides.of_perm guided perm (List.Perm.refl _)⟩

section Merge

theorem merge_pairwise (trans : ∀ a b c, before a b → before b c → before a c)
    {leftFirst : α → α → Bool} {left right : List α}
    (guided : ∀ l ∈ left, ∀ r ∈ right, if leftFirst l r then before l r else before r l)
    (first : left.Pairwise before) (second : right.Pairwise before) :
    (left.merge right leftFirst).Pairwise before := by
  induction left generalizing right with
  | nil =>
    rw [List.nil_merge]
    exact second
  | cons l left ihLeft =>
    induction right with
    | nil =>
      rw [List.merge_right]
      exact first
    | cons r right ihRight =>
      have here := guided l List.mem_cons_self r List.mem_cons_self
      obtain ⟨fromLeft, laterLeft⟩ := List.pairwise_cons.mp first
      obtain ⟨fromRight, laterRight⟩ := List.pairwise_cons.mp second
      rw [List.cons_merge_cons]
      split
      · rename_i takes
        rw [if_pos takes] at here
        refine List.pairwise_cons.mpr ⟨fun x listed => ?_, ihLeft
          (fun y inLeft z inRight => guided y (List.mem_cons_of_mem l inLeft) z inRight)
          laterLeft second⟩
        rcases List.mem_merge.mp listed with inLeft | inRight
        · exact fromLeft x inLeft
        · rcases List.mem_cons.mp inRight with rfl | later
          · exact here
          · exact trans l r x here (fromRight x later)
      · rename_i takes
        rw [if_neg takes] at here
        refine List.pairwise_cons.mpr ⟨fun x listed => ?_, ihRight
          (fun y inLeft z inRight => guided y inLeft z (List.mem_cons_of_mem r inRight))
          laterRight⟩
        rcases List.mem_merge.mp listed with inLeft | inRight
        · rcases List.mem_cons.mp inLeft with rfl | later
          · exact here
          · exact trans r l x here (fromLeft x later)
        · exact fromRight x inRight

theorem mergeRuns_perm (left right : List α) :
    (mergeRuns compare left right).Perm (left ++ right) := by
  unfold mergeRuns
  split
  · exact List.merge_perm_append _
  · refine (List.reverse_perm _).trans ((List.merge_perm_append _).trans ?_)
    exact ((List.reverse_perm right).append (List.reverse_perm left)).trans List.perm_append_comm

theorem mergeRuns_pairwise (refines : Refines before compare) {left right : List α}
    (guided : ∀ l ∈ left, ∀ r ∈ right, Guides compare before l r)
    (first : left.Pairwise before) (second : right.Pairwise before) :
    (mergeRuns compare left right).Pairwise before := by
  unfold mergeRuns
  split
  · refine merge_pairwise refines.trans (fun l inLeft r inRight => ?_) first second
    have here := guided l inLeft r inRight
    unfold Guides at here
    cases order : less compare r l <;> simpa [order] using here
  · refine List.pairwise_reverse.mpr (merge_pairwise
      (fun a b c ab bc => refines.trans c b a bc ab) (fun r inRight l inLeft => ?_)
      (List.pairwise_reverse.mpr second) (List.pairwise_reverse.mpr first))
    have here := guided l (List.mem_reverse.mp inLeft) r (List.mem_reverse.mp inRight)
    unfold Guides at here
    cases order : less compare r l <;> simpa [order] using here

end Merge

section Runs

theorem runLength_pos (goesOn : α → α → Bool) {xs : List α} (some : xs ≠ []) :
    0 < runLength goesOn xs := by
  match xs with
  | [x] => exact Nat.one_pos
  | a :: b :: rest =>
    rw [runLength]
    split
    · exact Nat.succ_pos _
    · exact Nat.one_pos

theorem take_runLength_pairwise {goesOn : α → α → Bool} {order : α → α → Prop}
    (trans : ∀ a b c, order a b → order b c → order a c) {xs : List α}
    (decides : xs.Pairwise fun a b => goesOn a b = true → order a b) :
    (xs.take (runLength goesOn xs)).Pairwise order := by
  induction xs using runLength.induct goesOn with
  | case1 a b rest goes ih =>
    obtain ⟨fromFirst, later⟩ := List.pairwise_cons.mp decides
    have here := fromFirst b List.mem_cons_self goes
    have arranged := ih later
    obtain ⟨length, isLength⟩ := Nat.exists_eq_add_one.mpr
      (runLength_pos goesOn (List.cons_ne_nil b rest))
    rw [runLength, if_pos goes, List.take_succ_cons]
    refine List.pairwise_cons.mpr ⟨fun x listed => ?_, arranged⟩
    rw [isLength, List.take_succ_cons] at listed arranged
    rcases List.mem_cons.mp listed with rfl | after
    · exact here
    · exact trans a b x here ((List.pairwise_cons.mp arranged).1 x after)
  | case2 a b rest stops =>
    rw [runLength, if_neg stops]
    exact List.pairwise_singleton _ a
  | case3 xs short =>
    match xs with
    | [] => exact List.Pairwise.nil
    | [x] => exact List.pairwise_singleton _ x
    | a :: b :: rest => exact absurd rfl (short a b rest)

theorem firstRun_perm {eager : Bool} {short : Nat} {xs rest : List α} {run : Run α}
    (ran : firstRun compare moved eager short xs = some (run, rest)) :
    (run.items ++ rest).Perm xs := by
  unfold firstRun at ran
  dsimp only at ran
  generalize runLength _ xs = length at ran
  split at ran
  · obtain ⟨rfl, rfl⟩ := Prod.mk.inj (Option.some.inj ran)
    dsimp only
    conv => rhs; rw [← List.take_append_drop length xs]
    refine List.Perm.append_right _ ?_
    split
    · exact List.reverse_perm _
    · exact List.Perm.refl _
  · split at ran
    · obtain ⟨sorted, sortedRan, result⟩ := Option.bind_eq_some_iff.mp ran
      obtain ⟨rfl, rfl⟩ := Prod.mk.inj (Option.some.inj result)
      have whole := (smallSort_perm _ sortedRan).append_right (xs.drop 32)
      rwa [List.take_append_drop] at whole
    · obtain ⟨rfl, rfl⟩ := Prod.mk.inj (Option.some.inj ran)
      dsimp only
      rw [List.take_append_drop]

theorem firstRun_length_lt {eager : Bool} {short : Nat} {xs rest : List α} {run : Run α}
    (ran : firstRun compare moved eager short xs = some (run, rest)) (nonempty : xs ≠ []) :
    rest.length < xs.length := by
  have positive := List.length_pos_iff.mpr nonempty
  unfold firstRun at ran
  dsimp only at ran
  generalize runLength _ xs = length at ran
  split at ran
  · obtain ⟨-, rfl⟩ := Prod.mk.inj (Option.some.inj ran)
    rw [List.length_drop]
    omega
  · split at ran
    · obtain ⟨sorted, -, result⟩ := Option.bind_eq_some_iff.mp ran
      obtain ⟨-, rfl⟩ := Prod.mk.inj (Option.some.inj result)
      rw [List.length_drop]
      omega
    · obtain ⟨-, rfl⟩ := Prod.mk.inj (Option.some.inj ran)
      rw [List.length_drop]
      omega

def Run.Sound (before : α → α → Prop) (run : Run α) : Prop :=
  run.sorted = true → run.items.Pairwise before

theorem firstRun_sound (refines : Refines before compare) {eager : Bool} {short : Nat}
    {xs : List α} (guided : xs.Pairwise (Guides compare before)) :
    ∃ run rest, firstRun compare moved eager short xs = some (run, rest) ∧ run.Sound before ∧
      (run.items ++ rest).Pairwise (Guides compare before) := by
  unfold firstRun
  dsimp only
  split
  · have parts := (List.take_append_drop
      (runLength (fun a b => less compare b a == isDescending compare xs) xs) xs).symm ▸ guided
    generalize isDescending compare xs = descending at parts
    cases descending with
    | false =>
      have arranged := @take_runLength_pairwise _ (fun a b => less compare b a == false) before
        refines.trans xs (guided.imp fun {a b} here goes => by rwa [Guides, beq_iff_eq.mp goes] at here)
      exact ⟨_, _, rfl, fun _ => arranged,
        Guides.pairwise_append refines parts (List.Perm.refl _) arranged⟩
    | true =>
      have arranged := List.pairwise_reverse.mpr (@take_runLength_pairwise _
        (fun a b => less compare b a == true) (fun a b => before b a)
        (fun a b c ab bc => refines.trans c b a bc ab) xs
        (guided.imp fun {a b} here goes => by rwa [Guides, beq_iff_eq.mp goes] at here))
      exact ⟨_, _, rfl, fun _ => arranged,
        Guides.pairwise_append refines parts (List.reverse_perm _) arranged⟩
  · split
    · have parts := List.take_append_drop 32 xs ▸ guided
      obtain ⟨sorted, sortedRan, arranged⟩ :=
        smallSort_sorts refines moved _ (List.pairwise_append.mp parts).1
      rw [sortedRan]
      exact ⟨_, _, rfl, fun _ => arranged,
        Guides.pairwise_append refines parts (smallSort_perm _ sortedRan) arranged⟩
    · exact ⟨_, _, rfl, fun sorted => absurd sorted Bool.false_ne_true,
        (List.take_append_drop (short + 1) xs).symm ▸ guided⟩

/-- Each run takes at least one element, so there are enough steps for all of them. -/
theorem runs_perm {eager : Bool} {short steps : Nat} {xs : List α} {found : List (Run α)}
    (enough : xs.length ≤ steps) (ran : runs compare moved eager short steps xs = some found) :
    (found.flatMap (·.items)).Perm xs := by
  induction steps generalizing xs found with
  | zero =>
    obtain rfl := List.length_eq_zero_iff.mp (Nat.le_zero.mp enough)
    obtain rfl := Option.some.inj ran
    exact List.Perm.refl _
  | succ steps ih =>
    cases xs with
    | nil =>
      obtain rfl := Option.some.inj ran
      exact List.Perm.refl _
    | cons x xs =>
      obtain ⟨⟨run, rest⟩, firstRan, ran⟩ := Option.bind_eq_some_iff.mp ran
      obtain ⟨later, laterRan, result⟩ := Option.bind_eq_some_iff.mp ran
      obtain rfl := Option.some.inj result
      have shorter := firstRun_length_lt firstRan (List.cons_ne_nil x xs)
      rw [List.flatMap_cons]
      exact ((ih (by omega) laterRan).append_left run.items).trans (firstRun_perm firstRan)

theorem runs_sound (refines : Refines before compare) {eager : Bool} {short steps : Nat}
    {xs : List α} (enough : xs.length ≤ steps) (guided : xs.Pairwise (Guides compare before)) :
    ∃ found, runs compare moved eager short steps xs = some found ∧
      (∀ run ∈ found, run.Sound before) ∧
      (found.flatMap (·.items)).Pairwise (Guides compare before) := by
  induction steps generalizing xs with
  | zero =>
    obtain rfl := List.length_eq_zero_iff.mp (Nat.le_zero.mp enough)
    exact ⟨[], rfl, nofun, List.Pairwise.nil⟩
  | succ steps ih =>
    cases xs with
    | nil => exact ⟨[], rfl, nofun, List.Pairwise.nil⟩
    | cons x xs =>
      obtain ⟨run, rest, firstRan, sound, parts⟩ :=
        @firstRun_sound _ _ _ moved refines eager short _ guided
      have shorter := firstRun_length_lt firstRan (List.cons_ne_nil x xs)
      obtain ⟨among, later, across⟩ := List.pairwise_append.mp parts
      have enoughLater : rest.length ≤ steps := by omega
      obtain ⟨found, foundRan, sounds, foundGuided⟩ := ih enoughLater later
      have perm := runs_perm enoughLater foundRan
      refine ⟨run :: found, ?_, List.forall_mem_cons.mpr ⟨sound, sounds⟩, ?_⟩
      · rw [runs, firstRan]
        · dsimp only [bind, Option.bind]
          rw [foundRan]
          rfl
        · exact List.cons_ne_nil x xs
      · rw [List.flatMap_cons]
        refine List.pairwise_append.mpr ⟨among, foundGuided, fun a here b there => ?_⟩
        exact across a here b (perm.mem_iff.mp there)

end Runs

section Joining

variable {join : Run α → Run α → Option (Run α)}

def stacked (stack : List (Run α × Nat)) : List α := stack.reverse.flatMap (·.1.items)

@[simp] theorem stacked_nil : stacked ([] : List (Run α × Nat)) = [] := rfl

@[simp] theorem stacked_cons (run : Run α) (depth : Nat) (stack : List (Run α × Nat)) :
    stacked ((run, depth) :: stack) = stacked stack ++ run.items := by
  rw [stacked, List.reverse_cons, List.flatMap_append]
  exact congrArg (_ ++ ·) (List.append_nil _)

theorem joinDown_perm
    (permutes : ∀ {left right run}, join left right = some run →
      run.items.Perm (left.items ++ right.items))
    {depth : Nat} {stack rest : List (Run α × Nat)} {run joined : Run α}
    (ran : joinDown join depth stack run = some (rest, joined)) :
    (stacked rest ++ joined.items).Perm (stacked stack ++ run.items) := by
  induction stack generalizing run with
  | nil =>
    obtain ⟨rfl, rfl⟩ := Prod.mk.inj (Option.some.inj ran)
    exact List.Perm.refl _
  | cons top stack ih =>
    obtain ⟨left, deep⟩ := top
    rw [joinDown] at ran
    split at ran
    · obtain ⟨both, joins, ran⟩ := Option.bind_eq_some_iff.mp ran
      rw [stacked_cons, List.append_assoc]
      exact (ih ran).trans ((permutes joins).append_left _)
    · obtain ⟨rfl, rfl⟩ := Prod.mk.inj (Option.some.inj ran)
      exact List.Perm.refl _

theorem joinDown_zero {stack rest : List (Run α × Nat)} {run joined : Run α}
    (ran : joinDown join 0 stack run = some (rest, joined)) : rest = [] := by
  induction stack generalizing run with
  | nil => exact (Prod.mk.inj (Option.some.inj ran)).1.symm
  | cons top stack ih =>
    rw [joinDown, if_pos (Nat.zero_le _)] at ran
    obtain ⟨both, -, ran⟩ := Option.bind_eq_some_iff.mp ran
    exact ih ran

theorem joinAll_perm
    (permutes : ∀ {left right run}, join left right = some run →
      run.items.Perm (left.items ++ right.items))
    {total stop : Nat} {stack : List (Run α × Nat)} {run joined : Run α} {later : List (Run α)}
    (ran : joinAll join total stack run stop later = some joined) :
    joined.items.Perm (stacked stack ++ run.items ++ later.flatMap (·.items)) := by
  induction later generalizing stack run stop with
  | nil =>
    obtain ⟨⟨rest, last⟩, lastRan, rfl⟩ := Option.map_eq_some_iff.mp ran
    have perm := joinDown_perm permutes lastRan
    obtain rfl := joinDown_zero lastRan
    rw [List.flatMap_nil, List.append_nil]
    exact perm
  | cons next later ih =>
    obtain ⟨⟨rest, last⟩, lastRan, ran⟩ := Option.bind_eq_some_iff.mp ran
    have perm := ih ran
    rw [stacked_cons] at perm
    refine perm.trans ?_
    rw [List.flatMap_cons, List.append_assoc _ next.items]
    exact (joinDown_perm permutes lastRan).append_right _

def Joins (before : α → α → Prop) (compare : α → α → Ordering)
    (join : Run α → Run α → Option (Run α)) : Prop :=
  ∀ left right : Run α, left.Sound before → right.Sound before →
    (left.items ++ right.items).Pairwise (Guides compare before) →
    ∃ run, join left right = some run ∧ run.Sound before ∧
      run.items.Pairwise (Guides compare before)

variable (permutes : ∀ {left right run}, join left right = some run →
    run.items.Perm (left.items ++ right.items))
  (joins : Joins before compare join)
include permutes joins

theorem joinDown_sound {depth : Nat} {stack : List (Run α × Nat)} {run : Run α}
    (sounds : ∀ entry ∈ stack, entry.1.Sound before) (sound : run.Sound before)
    (guided : (stacked stack ++ run.items).Pairwise (Guides compare before)) :
    ∃ rest joined, joinDown join depth stack run = some (rest, joined) ∧
      (∀ entry ∈ rest, entry.1.Sound before) ∧ joined.Sound before ∧
      (stacked rest ++ joined.items).Pairwise (Guides compare before) := by
  induction stack generalizing run with
  | nil => exact ⟨[], run, rfl, nofun, sound, guided⟩
  | cons top stack ih =>
    obtain ⟨left, deep⟩ := top
    rw [joinDown]
    split
    · rw [stacked_cons, List.append_assoc] at guided
      obtain ⟨first, second, across⟩ := List.pairwise_append.mp guided
      obtain ⟨both, bothRan, bothSound, bothGuided⟩ :=
        joins left run (sounds _ List.mem_cons_self) sound second
      rw [bothRan]
      refine ih (fun entry listed => sounds entry (List.mem_cons_of_mem _ listed)) bothSound
        (List.pairwise_append.mpr ⟨first, bothGuided, fun a here b there => ?_⟩)
      exact across a here b ((permutes bothRan).mem_iff.mp there)
    · exact ⟨_, run, rfl, sounds, sound, guided⟩

theorem joinAll_sound {total stop : Nat} {stack : List (Run α × Nat)} {run : Run α}
    {later : List (Run α)} (sounds : ∀ entry ∈ stack, entry.1.Sound before)
    (sound : run.Sound before) (laterSounds : ∀ next ∈ later, next.Sound before)
    (guided : (stacked stack ++ run.items ++ later.flatMap (·.items)).Pairwise
      (Guides compare before)) :
    ∃ joined, joinAll join total stack run stop later = some joined ∧ joined.Sound before ∧
      joined.items.Pairwise (Guides compare before) := by
  induction later generalizing stack run stop with
  | nil =>
    rw [List.flatMap_nil, List.append_nil] at guided
    obtain ⟨rest, joined, ran, -, joinedSound, joinedGuided⟩ :=
      @joinDown_sound _ _ _ _ permutes joins 0 _ _ sounds sound guided
    refine ⟨joined, ?_, joinedSound, (List.pairwise_append.mp joinedGuided).2.1⟩
    rw [joinAll, ran]
    rfl
  | cons next later ih =>
    rw [List.flatMap_cons] at guided
    obtain ⟨first, second, across⟩ := List.pairwise_append.mp guided
    obtain ⟨rest, joined, ran, restSounds, joinedSound, joinedGuided⟩ :=
      @joinDown_sound _ _ _ _ permutes joins
        (joinDepth total (stop - run.items.length) stop (stop + next.items.length)) _ _ sounds
        sound first
    have perm := joinDown_perm permutes ran
    rw [joinAll]
    dsimp only
    rw [ran]
    refine ih (List.forall_mem_cons.mpr ⟨joinedSound, restSounds⟩)
      (laterSounds next List.mem_cons_self)
      (fun other listed => laterSounds other (List.mem_cons_of_mem next listed)) ?_
    rw [stacked_cons, List.append_assoc _ next.items]
    refine List.pairwise_append.mpr ⟨joinedGuided, second, fun a here b there => ?_⟩
    exact across a (perm.mem_iff.mp here) b there

end Joining

section Stable

variable {sortRun : List α → Option (List α)}

theorem Run.finish_perm (permutes : Permutes sortRun) {run : Run α} {sorted : List α}
    (ran : run.finish sortRun = some sorted) : sorted.Perm run.items := by
  unfold finish at ran
  split at ran
  · obtain rfl := Option.some.inj ran
    exact List.Perm.refl _
  · exact permutes ran

theorem Run.finish_arranges (sorts : Sorts before compare sortRun) {run : Run α}
    (sound : run.Sound before) (guided : run.items.Pairwise (Guides compare before)) :
    Arranges before (run.finish sortRun) := by
  unfold finish
  split
  · rename_i sorted
    exact ⟨run.items, rfl, sound sorted⟩
  · exact sorts run.items guided

theorem joinRuns_perm (permutes : Permutes sortRun) {room : Nat} {left right run : Run α}
    (ran : joinRuns compare sortRun room left right = some run) :
    run.items.Perm (left.items ++ right.items) := by
  unfold joinRuns at ran
  split at ran
  · obtain rfl := Option.some.inj ran
    exact List.Perm.refl _
  · obtain ⟨first, firstRan, ran⟩ := Option.bind_eq_some_iff.mp ran
    obtain ⟨second, secondRan, result⟩ := Option.bind_eq_some_iff.mp ran
    obtain rfl := Option.some.inj result
    exact (mergeRuns_perm first second).trans
      ((Run.finish_perm permutes firstRan).append (Run.finish_perm permutes secondRan))

theorem joinRuns_joins (refines : Refines before compare) (permutes : Permutes sortRun)
    (sorts : Sorts before compare sortRun) (room : Nat) :
    Joins before compare (joinRuns compare sortRun room) := by
  intro left right leftSound rightSound guided
  unfold joinRuns
  split
  · exact ⟨_, rfl, nofun, guided⟩
  · obtain ⟨amongLeft, amongRight, -⟩ := List.pairwise_append.mp guided
    obtain ⟨first, firstRan, firstSorted⟩ := Run.finish_arranges sorts leftSound amongLeft
    obtain ⟨second, secondRan, secondSorted⟩ := Run.finish_arranges sorts rightSound amongRight
    have merged := mergeRuns_pairwise refines (Guides.of_perm guided
      (Run.finish_perm permutes firstRan) (Run.finish_perm permutes secondRan))
      firstSorted secondSorted
    rw [firstRan, secondRan]
    exact ⟨_, rfl, fun _ => merged, merged.imp refines.guides⟩

theorem driftsort_perm (permutes : Permutes sortRun) (eager : Bool) :
    Permutes (driftsort compare sortRun moved eager) := by
  intro xs sorted ran
  obtain ⟨found, foundRan, ran⟩ := Option.bind_eq_some_iff.mp ran
  have perm := runs_perm (Nat.le_refl _) foundRan
  cases found with
  | nil =>
    obtain rfl := Option.some.inj ran
    exact perm
  | cons first rest =>
    obtain ⟨joined, joinedRan, ran⟩ := Option.bind_eq_some_iff.mp ran
    have whole := joinAll_perm (joinRuns_perm permutes) joinedRan
    rw [stacked_nil, List.nil_append] at whole
    exact (Run.finish_perm permutes ran).trans (whole.trans perm)

theorem driftsort_sorts (refines : Refines before compare) (permutes : Permutes sortRun)
    (sorts : Sorts before compare sortRun) (eager : Bool) :
    Sorts before compare (driftsort compare sortRun moved eager) := by
  intro xs guided
  obtain ⟨found, foundRan, sounds, foundGuided⟩ := @runs_sound _ _ _ moved refines eager
    (shortRun xs.length) _ _ (Nat.le_refl _) guided
  unfold driftsort
  rw [foundRan]
  cases found with
  | nil => exact ⟨[], rfl, List.Pairwise.nil⟩
  | cons first rest =>
    have joins := joinRuns_joins refines permutes sorts
      (max (xs.length - xs.length / 2) (8000000 / moved.width))
    obtain ⟨joined, joinedRan, sound, joinedGuided⟩ := @joinAll_sound _ _ _ _
      (joinRuns_perm permutes) joins xs.length first.items.length [] _ _ nofun
      (sounds first List.mem_cons_self)
      (fun next listed => sounds next (List.mem_cons_of_mem first listed)) foundGuided
    obtain ⟨sorted, ran, arranged⟩ := Run.finish_arranges sorts sound joinedGuided
    dsimp only [bind, Option.bind]
    rw [joinedRan]
    exact ⟨sorted, ran, arranged⟩

theorem insertionSort_permutes :
    Permutes fun xs : List α => some (insertionSort compare xs) := by
  intro xs sorted ran
  obtain rfl := Option.some.inj ran
  exact insertionSort_perm compare xs

theorem insertionSort_sorts (refines : Refines before compare) :
    Sorts before compare fun xs : List α => some (insertionSort compare xs) :=
  fun _ guided => ⟨_, rfl, insertionSort_pairwise refines.trans guided⟩

theorem sortRun_perm : Permutes (Sorting.sortRun compare moved) :=
  quicksort_perm (driftsort_perm insertionSort_permutes true) _ none

theorem sortRun_sorts [Std.TransCmp compare] (refines : Refines before compare) :
    Sorts before compare (Sorting.sortRun compare moved) :=
  fun _ guided => quicksort_arranges refines (driftsort_perm insertionSort_permutes true)
    (driftsort_sorts refines insertionSort_permutes (insertionSort_sorts refines) true) nofun guided

theorem stableSort_perm : Permutes (stableSort compare moved) := by
  intro xs sorted ran
  unfold stableSort at ran
  split at ran
  · exact insertionSort_permutes ran
  · exact driftsort_perm sortRun_perm _ ran

theorem stableSort_sorts [Std.TransCmp compare] (refines : Refines before compare) :
    Sorts before compare (stableSort compare moved) := by
  intro xs guided
  unfold stableSort
  split
  · exact insertionSort_sorts refines xs guided
  · exact driftsort_sorts refines sortRun_perm (sortRun_sorts refines) _ xs guided

end Stable

section Places

variable {compare : Nat → Nat → Ordering} {length : Nat}

theorem order_perm {places : List Nat} (ran : order moved compare length = some places) :
    places.Perm (List.range length) := stableSort_perm ran

/-- Equal places are in the order in which they stand. -/
def Precedes (compare : Nat → Nat → Ordering) (i j : Nat) : Prop :=
  compare i j = .lt ∨ compare i j = .eq ∧ i < j

variable [Std.TransCmp compare]

theorem precedes_refines : Refines (Precedes compare) compare where
  trans i j k first second := by
    rcases first with first | ⟨first, up⟩
    · rcases second with second | ⟨second, -⟩
      · exact .inl (Std.TransCmp.lt_trans first second)
      · exact .inl (Std.TransCmp.lt_of_lt_of_eq first second)
    · rcases second with second | ⟨second, further⟩
      · exact .inl (Std.TransCmp.lt_of_eq_of_lt first second)
      · exact .inr ⟨Std.TransCmp.eq_trans first second, Nat.lt_trans up further⟩
  asymm {i j} first second := by
    rcases first with first | ⟨first, up⟩
    · rw [Precedes, @Std.OrientedCmp.eq_swap _ compare, first] at second
      rcases second with second | ⟨second, -⟩ <;> cases second
    · rw [Precedes, @Std.OrientedCmp.eq_swap _ compare, first] at second
      rcases second with second | ⟨-, down⟩
      · cases second
      · exact Nat.lt_asymm up down
  of_lt := .inl

theorem guides_of_lt {i j : Nat} (up : i < j) : Guides compare (Precedes compare) i j := by
  unfold Guides
  split
  · rename_i less
    exact .inl (beq_iff_eq.mp less)
  · rename_i less
    cases order : compare i j with
    | lt => exact .inl order
    | eq => exact .inr ⟨order, up⟩
    | gt => exact absurd (beq_iff_eq.mpr (Std.OrientedCmp.gt_iff_lt.mp order)) less

theorem range_guided (length : Nat) :
    (List.range length).Pairwise (Guides compare (Precedes compare)) :=
  List.pairwise_lt_range.imp guides_of_lt

/-- Where comparison orders what is sorted, the result is in order and the same for whatever is
    moved. -/
theorem order_eq (moved : Moved) (length : Nat) :
    order moved compare length = some (insertionSort compare (List.range length)) := by
  obtain ⟨places, ran, arranged⟩ :=
    @stableSort_sorts _ _ _ moved _ precedes_refines _ (@range_guided compare _ length)
  have inserted := insertionSort_pairwise precedes_refines.trans (@range_guided compare _ length)
  rw [order, ran]
  refine congrArg some (List.Perm.eq_of_pairwise ?_ arranged inserted
    ((stableSort_perm ran).trans (insertionSort_perm compare _).symm))
  exact fun i j _ _ first second => absurd second (precedes_refines.asymm first)

end Places

end SchemaPack.Sorting
