import SchemaPack.Sorting

namespace SchemaPack

section Insertion

variable {α : Type} (compare : α → α → Ordering)

theorem insertDescending_perm (x : α) (sorted : List α) :
    (insertDescending compare x sorted).Perm (x :: sorted) := by
  induction sorted with
  | nil => exact List.Perm.refl _
  | cons y rest ih =>
    rw [insertDescending]
    split
    · exact (ih.cons y).trans (List.Perm.swap x y rest)
    · exact List.Perm.refl _

theorem insertAll_perm (sorted xs : List α) :
    (insertAll compare sorted xs).Perm (sorted ++ xs) := by
  have folded : ∀ descending : List α, (xs.foldl (fun sorted x => insertDescending compare x sorted)
      descending).Perm (descending ++ xs) := by
    induction xs with
    | nil =>
      intro descending
      rw [List.append_nil]
      exact List.Perm.refl _
    | cons x rest ih =>
      intro descending
      have first := insertDescending_perm compare x descending
      exact (ih _).trans ((first.append_right rest).trans List.perm_middle.symm)
  exact (List.reverse_perm _).trans
    ((folded sorted.reverse).trans ((List.reverse_perm sorted).append_right xs))

theorem insertionSort_perm (xs : List α) : (insertionSort compare xs).Perm xs :=
  insertAll_perm compare [] xs

end Insertion

namespace Sorting

variable {α : Type} {compare : α → α → Ordering} {before : α → α → Prop}

/-- Comparing two that stand in this order tells how they are to stand. -/
def Guides (compare : α → α → Ordering) (before : α → α → Prop) (a b : α) : Prop :=
  if less compare b a then before b a else before a b

section Insertion

variable (trans : ∀ a b c, before a b → before b c → before a c)
include trans

theorem insertDescending_pairwise {x : α} {sorted : List α}
    (guided : ∀ y ∈ sorted, Guides compare before y x)
    (descending : sorted.Pairwise fun a b => before b a) :
    (insertDescending compare x sorted).Pairwise fun a b => before b a := by
  induction sorted with
  | nil => exact List.pairwise_singleton _ _
  | cons y rest ih =>
    obtain ⟨above, below⟩ := List.pairwise_cons.mp descending
    have here := guided y List.mem_cons_self
    unfold Guides less at here
    rw [insertDescending]
    split
    · rename_i less
      rw [if_pos less] at here
      refine List.pairwise_cons.mpr ⟨fun z listed => ?_,
        ih (fun z later => guided z (List.mem_cons_of_mem y later)) below⟩
      rcases List.mem_cons.mp ((insertDescending_perm compare x rest).mem_iff.mp listed) with
        rfl | later
      · exact here
      · exact above z later
    · rename_i notLess
      rw [if_neg notLess] at here
      refine List.pairwise_cons.mpr ⟨fun z listed => ?_, descending⟩
      rcases List.mem_cons.mp listed with rfl | later
      · exact here
      · exact trans z y x (above z later) here

theorem insertAll_pairwise {sorted xs : List α} (ascending : sorted.Pairwise before)
    (guided : (sorted ++ xs).Pairwise (Guides compare before)) :
    (insertAll compare sorted xs).Pairwise before := by
  have folded : ∀ descending : List α, (descending.Pairwise fun a b => before b a) →
      xs.Pairwise (Guides compare before) →
      (∀ y ∈ descending, ∀ x ∈ xs, Guides compare before y x) →
      (xs.foldl (fun sorted x => insertDescending compare x sorted) descending).Pairwise
        fun a b => before b a := by
    clear guided
    induction xs with
    | nil => exact fun _ arranged _ _ => arranged
    | cons x rest ih =>
      intro descending arranged among across
      obtain ⟨fromFirst, later⟩ := List.pairwise_cons.mp among
      refine ih _ (insertDescending_pairwise trans
        (fun y listed => across y listed x List.mem_cons_self) arranged) later fun y listed z last => ?_
      rcases List.mem_cons.mp ((insertDescending_perm compare x descending).mem_iff.mp listed) with
        rfl | old
      · exact fromFirst z last
      · exact across y old z (List.mem_cons_of_mem x last)
  obtain ⟨-, among, across⟩ := List.pairwise_append.mp guided
  refine List.pairwise_reverse.mpr (folded _ (List.pairwise_reverse.mpr ascending) among ?_)
  exact fun y listed => across y (List.mem_reverse.mp listed)

theorem insertionSort_pairwise {xs : List α} (guided : xs.Pairwise (Guides compare before)) :
    (insertionSort compare xs).Pairwise before :=
  insertAll_pairwise trans List.Pairwise.nil guided

end Insertion

theorem less_eq_false_iff [Std.OrientedCmp compare] {a b : α} :
    less compare a b = false ↔ (compare b a).isLE = true := by
  have swap : compare a b = (compare b a).swap := Std.OrientedCmp.eq_swap
  rw [less, swap]
  cases compare b a <;> decide

theorem insertionSort_ascending [Std.TransCmp compare] (xs : List α) :
    (insertionSort compare xs).Pairwise fun a b => (compare a b).isLE = true := by
  refine insertionSort_pairwise (fun _ _ _ => Std.TransCmp.isLE_trans)
    (List.pairwise_of_forall fun a b => ?_)
  unfold Guides
  split
  · rename_i less
    exact congrArg Ordering.isLE (beq_iff_eq.mp less)
  · rename_i notLess
    exact less_eq_false_iff.mp (Bool.eq_false_iff.mpr notLess)

/-- A strict order of all elements that comparison agrees with. -/
structure Refines (before : α → α → Prop) (compare : α → α → Ordering) : Prop where
  trans : ∀ a b c, before a b → before b c → before a c
  asymm : ∀ {a b}, before a b → ¬before b a
  of_lt : ∀ {a b}, compare a b = .lt → before a b

theorem Refines.guides (refines : Refines before compare) {a b : α} (order : before a b) :
    Guides compare before a b := by
  unfold Guides
  rw [if_neg]
  · exact order
  · exact fun less => refines.asymm order (refines.of_lt (beq_iff_eq.mp less))

def Arranges (before : α → α → Prop) (result : Option (List α)) : Prop :=
  ∃ sorted, result = some sorted ∧ sorted.Pairwise before

def Permutes (sort : List α → Option (List α)) : Prop :=
  ∀ {xs sorted}, sort xs = some sorted → sorted.Perm xs

def Sorts (before : α → α → Prop) (compare : α → α → Ordering)
    (sort : List α → Option (List α)) : Prop :=
  ∀ xs : List α, xs.Pairwise (Guides compare before) → Arranges before (sort xs)

section Steps

variable {rightFirst : α → α → Bool}

/-- What has been merged are the starts of both lists. -/
structure Splits (left right : List α) (merged : Merged α) (lefts rights : List α) : Prop where
  left : left = lefts ++ merged.left
  right : right = rights ++ merged.right
  taken : merged.taken.Perm (lefts ++ rights)

theorem Splits.mem_or_mem {left right lefts rights : List α} {merged : Merged α} {a : α}
    (splits : Splits left right merged lefts rights) (taken : a ∈ merged.taken) :
    a ∈ left ∨ a ∈ right := by
  rw [splits.left, splits.right]
  exact (List.mem_append.mp (splits.taken.mem_iff.mp taken)).imp (List.mem_append_left _)
    (List.mem_append_left _)

theorem mergeSteps_splits (steps : Nat) (left right : List α) :
    ∃ lefts rights, Splits left right (mergeSteps rightFirst steps left right) lefts rights := by
  induction steps, left, right using mergeSteps.induct rightFirst with
  | case1 steps l left r right first ih =>
    obtain ⟨lefts, rights, splits⟩ := ih
    rw [mergeSteps, if_pos first]
    exact ⟨lefts, r :: rights, splits.left, congrArg (r :: ·) splits.right,
      (splits.taken.cons r).trans List.perm_middle.symm⟩
  | case2 steps l left r right first ih =>
    obtain ⟨lefts, rights, splits⟩ := ih
    rw [mergeSteps, if_neg first]
    exact ⟨l :: lefts, rights, congrArg (l :: ·) splits.left, splits.right, splits.taken.cons l⟩
  | case3 steps left right ended =>
    rw [mergeSteps]
    · exact ⟨[], [], rfl, rfl, List.Perm.refl _⟩
    · exact ended

theorem mergeSteps_length {steps : Nat} {left right : List α} (lefts : steps ≤ left.length)
    (rights : steps ≤ right.length) :
    (mergeSteps rightFirst steps left right).taken.length = steps := by
  induction steps, left, right using mergeSteps.induct rightFirst with
  | case1 steps l left r right first ih =>
    rw [mergeSteps, if_pos first]
    exact congrArg (· + 1) (ih (Nat.le_of_succ_le lefts) (Nat.le_of_succ_le_succ rights))
  | case2 steps l left r right first ih =>
    rw [mergeSteps, if_neg first]
    exact congrArg (· + 1) (ih (Nat.le_of_succ_le_succ lefts) (Nat.le_of_succ_le rights))
  | case3 steps left right ended =>
    rw [mergeSteps]
    · cases steps with
      | zero => rfl
      | succ steps =>
        cases left with
        | nil => cases lefts
        | cons l left =>
          cases right with
          | nil => cases rights
          | cons r right => exact absurd rfl (ended steps l left r right rfl rfl)
    · exact ended

/-- What has been merged stands before all that is left. -/
structure Leads (before : α → α → Prop) (merged : Merged α) : Prop where
  taken : merged.taken.Pairwise before
  rest : ∀ a ∈ merged.taken, ∀ b, b ∈ merged.left ∨ b ∈ merged.right → before a b

theorem Leads.cons {a : α} {left right lefts rights : List α} {merged : Merged α}
    (leads : Leads before merged) (splits : Splits left right merged lefts rights)
    (ahead : ∀ b, b ∈ left ∨ b ∈ right → before a b) :
    Leads before { merged with taken := a :: merged.taken } where
  taken := List.pairwise_cons.mpr
    ⟨fun b listed => ahead b (splits.mem_or_mem listed), leads.taken⟩
  rest b listed c remains := by
    rcases List.mem_cons.mp listed with rfl | later
    · apply ahead
      rw [splits.left, splits.right]
      exact remains.imp (List.mem_append_right lefts) (List.mem_append_right rights)
    · exact leads.rest b later c remains

theorem mergeSteps_leads (trans : ∀ a b c, before a b → before b c → before a c)
    {steps : Nat} {left right : List α}
    (guided : ∀ l ∈ left, ∀ r ∈ right, if rightFirst l r then before r l else before l r)
    (first : left.Pairwise before) (second : right.Pairwise before) :
    Leads before (mergeSteps rightFirst steps left right) := by
  induction steps, left, right using mergeSteps.induct rightFirst with
  | case1 steps l left r right takes ih =>
    have here := guided l List.mem_cons_self r List.mem_cons_self
    rw [if_pos takes] at here
    obtain ⟨fromLeft, -⟩ := List.pairwise_cons.mp first
    obtain ⟨fromRight, later⟩ := List.pairwise_cons.mp second
    have leads := ih (fun l inLeft r inRight => guided l inLeft r (List.mem_cons_of_mem _ inRight))
      first later
    obtain ⟨_, _, splits⟩ := @mergeSteps_splits _ rightFirst steps (l :: left) right
    rw [mergeSteps, if_pos takes]
    refine leads.cons splits fun b remains => ?_
    rcases remains with inLeft | inRight
    · rcases List.mem_cons.mp inLeft with rfl | listed
      · exact here
      · exact trans r l b here (fromLeft b listed)
    · exact fromRight b inRight
  | case2 steps l left r right takes ih =>
    have here := guided l List.mem_cons_self r List.mem_cons_self
    rw [if_neg takes] at here
    obtain ⟨fromLeft, later⟩ := List.pairwise_cons.mp first
    obtain ⟨fromRight, -⟩ := List.pairwise_cons.mp second
    have leads := ih (fun l inLeft r inRight => guided l (List.mem_cons_of_mem _ inLeft) r inRight)
      later second
    obtain ⟨_, _, splits⟩ := @mergeSteps_splits _ rightFirst steps left (r :: right)
    rw [mergeSteps, if_neg takes]
    refine leads.cons splits fun b remains => ?_
    rcases remains with inLeft | inRight
    · exact fromLeft b inLeft
    · rcases List.mem_cons.mp inRight with rfl | listed
      · exact here
      · exact trans l r b here (fromRight b listed)
  | case3 steps left right ended =>
    rw [mergeSteps]
    · exact ⟨List.Pairwise.nil, nofun⟩
    · exact ended

end Steps

section BothWays

/-- What two cuts of a list have between them, if they do not cross. -/
theorem exists_middle {xs a b c d : List α} (front : xs = a ++ b) (back : xs = c ++ d)
    (meets : xs.length ≤ b.length + c.length) :
    ∃ middle, b = middle ++ d ∧ c = a ++ middle ∧
      b.take (b.length + c.length - xs.length) = middle := by
  obtain ⟨middle, rfl, rfl⟩ | ⟨beyond, rfl, rfl⟩ :=
    List.append_eq_append_iff.mp (front.symm.trans back)
  · refine ⟨middle, rfl, rfl, ?_⟩
    have long : (middle ++ d).length + (a ++ middle).length - xs.length = middle.length := by
      rw [front, List.length_append, List.length_append, List.length_append, List.length_append]
      omega
    rw [long, List.take_left]
  · have none : beyond = [] := by
      rw [front, List.length_append, List.length_append] at meets
      exact List.length_eq_zero_iff.mp (by omega)
    subst none
    rw [List.append_nil] at front ⊢
    refine ⟨[], rfl, (List.append_nil c).symm, ?_⟩
    rw [front, List.length_append]
    have long : b.length + c.length - (c.length + b.length) = 0 := by omega
    rw [long, List.take_zero]

theorem exists_mem_of_crosses {xs a b c d : List α} (front : xs = a ++ b) (back : xs = c ++ d)
    (crosses : b.length + c.length < xs.length) : ∃ x ∈ a, x ∈ d := by
  obtain ⟨middle, rfl, rfl⟩ | ⟨beyond, rfl, rfl⟩ :=
    List.append_eq_append_iff.mp (front.symm.trans back)
  · rw [front, List.length_append, List.length_append, List.length_append, List.length_append]
      at crosses
    omega
  · cases beyond with
    | nil =>
      rw [front, List.append_nil, List.length_append] at crosses
      omega
    | cons x beyond =>
      exact ⟨x, List.mem_append_right c List.mem_cons_self,
        List.mem_append_left b List.mem_cons_self⟩

theorem Splits.back {left right lefts rights : List α} {merged : Merged α}
    (splits : Splits left.reverse right.reverse merged lefts rights) :
    left = merged.left.reverse ++ lefts.reverse ∧ right = merged.right.reverse ++ rights.reverse :=
  ⟨by rw [← List.reverse_append, ← splits.left, List.reverse_reverse],
    by rw [← List.reverse_append, ← splits.right, List.reverse_reverse]⟩

theorem exists_mem_between {xs a b c d : List α} (front : xs = a ++ b) (back : xs = c ++ d)
    (apart : xs.length < b.length + c.length) : ∃ x ∈ b, x ∈ c := by
  obtain ⟨middle, rfl, rfl, -⟩ := exists_middle front back (Nat.le_of_lt apart)
  cases middle with
  | nil =>
    rw [front, List.append_nil, List.nil_append, List.length_append] at apart
    omega
  | cons x middle =>
    exact ⟨x, List.mem_append_left d List.mem_cons_self,
      List.mem_append_right a List.mem_cons_self⟩

variable {left right lefts rights backLefts backRights : List α} {f b : Merged α}
  (front : Splits left right f lefts rights)
  (back : Splits left.reverse right.reverse b backLefts backRights)
include front back

theorem meet_eq (meetLeft : left.length ≤ f.left.length + b.left.length)
    (meetRight : right.length ≤ f.right.length + b.right.length) :
    ∃ middleLeft middleRight, left = lefts ++ middleLeft ++ backLefts.reverse ∧
      right = rights ++ middleRight ++ backRights.reverse ∧
      meet left right f b = some (f.taken ++ middleLeft ++ middleRight ++ b.taken.reverse) := by
  obtain ⟨backLeft, backRight⟩ := back.back
  rw [← @List.length_reverse _ b.left] at meetLeft
  rw [← @List.length_reverse _ b.right] at meetRight
  obtain ⟨middleLeft, leftRest, -, isLeft⟩ := exists_middle front.left backLeft meetLeft
  obtain ⟨middleRight, rightRest, -, isRight⟩ := exists_middle front.right backRight meetRight
  rw [List.length_reverse] at meetLeft meetRight isLeft isRight
  refine ⟨middleLeft, middleRight, ?_, ?_, ?_⟩
  · rw [List.append_assoc, ← leftRest, ← front.left]
  · rw [List.append_assoc, ← rightRest, ← front.right]
  · unfold meet
    dsimp only
    rw [if_pos ⟨meetLeft, meetRight⟩, isLeft, isRight]

omit front back in
theorem meets_of_eq_some {merged : List α} (met : meet left right f b = some merged) :
    left.length ≤ f.left.length + b.left.length ∧
      right.length ≤ f.right.length + b.right.length := by
  unfold meet at met
  dsimp only at met
  split at met
  · assumption
  · cases met

theorem meet_perm {merged : List α} (met : meet left right f b = some merged) :
    merged.Perm (left ++ right) := by
  have meets := meets_of_eq_some met
  obtain ⟨middleLeft, middleRight, isLeft, isRight, result⟩ := meet_eq front back meets.1 meets.2
  rw [result] at met
  obtain rfl := Option.some.inj met
  classical
  refine List.perm_iff_count.mpr fun x => ?_
  have taken := front.taken.count_eq x
  have others := back.taken.count_eq x
  rw [isLeft, isRight]
  simp only [List.count_append, List.count_reverse] at taken others ⊢
  omega

omit front back in
theorem Leads.not_trails (refines : Refines before compare) (leads : Leads before f)
    (trails : Leads (fun x y => before y x) b) {x y : α} (early : x ∈ f.taken)
    (late : x ∈ b.taken) (after : y ∈ f.left ∨ y ∈ f.right)
    (ahead : y ∈ b.left ∨ y ∈ b.right) : False :=
  refines.asymm (leads.rest x early y after) (trails.rest x late y ahead)

/-- Where both ends take as many, they do not cross: they would have taken something from one list
    twice, and nothing that is left between them in the other stands on one side of it. -/
theorem meets_of_leads (refines : Refines before compare) (leads : Leads before f)
    (trails : Leads (fun x y => before y x) b) (shorter : left.length ≤ right.length)
    (ahead : f.taken.length = left.length) (behind : b.taken.length = left.length) :
    left.length ≤ f.left.length + b.left.length ∧
      right.length ≤ f.right.length + b.right.length := by
  obtain ⟨backLeft, backRight⟩ := back.back
  have counts : f.taken.length = lefts.length + rights.length ∧
      b.taken.length = backLefts.length + backRights.length :=
    ⟨front.taken.length_eq.trans List.length_append,
      back.taken.length_eq.trans List.length_append⟩
  have lengthLeft := congrArg List.length front.left
  have lengthRight := congrArg List.length front.right
  have lengthBackLeft := congrArg List.length backLeft
  have lengthBackRight := congrArg List.length backRight
  simp only [List.length_append, List.length_reverse]
    at lengthLeft lengthRight lengthBackLeft lengthBackRight
  constructor
  · refine Nat.le_of_not_lt fun crosses => ?_
    obtain ⟨x, early, late⟩ := exists_mem_of_crosses front.left backLeft
      (by rw [List.length_reverse]; exact crosses)
    obtain ⟨y, after, ahead⟩ := exists_mem_between front.right backRight
      (by rw [List.length_reverse]; omega)
    exact leads.not_trails refines trails
      (front.taken.mem_iff.mpr (List.mem_append_left _ early))
      (back.taken.mem_iff.mpr (List.mem_append_left _ (List.mem_reverse.mp late)))
      (.inr after) (.inr (List.mem_reverse.mp ahead))
  · refine Nat.le_of_not_lt fun crosses => ?_
    obtain ⟨x, early, late⟩ := exists_mem_of_crosses front.right backRight
      (by rw [List.length_reverse]; exact crosses)
    obtain ⟨y, after, ahead⟩ := exists_mem_between front.left backLeft
      (by rw [List.length_reverse]; omega)
    exact leads.not_trails refines trails
      (front.taken.mem_iff.mpr (List.mem_append_right _ early))
      (back.taken.mem_iff.mpr (List.mem_append_right _ (List.mem_reverse.mp late)))
      (.inl after) (.inl (List.mem_reverse.mp ahead))

theorem meet_arranges (refines : Refines before compare) (leads : Leads before f)
    (trails : Leads (fun x y => before y x) b) (shorter : left.length ≤ right.length)
    (long : right.length ≤ left.length + 1) (ahead : f.taken.length = left.length)
    (behind : b.taken.length = left.length) : Arranges before (meet left right f b) := by
  have meets := meets_of_leads front back refines leads trails shorter ahead behind
  obtain ⟨middleLeft, middleRight, isLeft, isRight, result⟩ := meet_eq front back meets.1 meets.2
  have counts := front.taken.length_eq
  have backCounts := back.taken.length_eq
  have lengths := congrArg List.length isLeft
  have otherLengths := congrArg List.length isRight
  simp only [List.length_append, List.length_reverse] at counts backCounts lengths otherLengths
  -- the rest of either list after its start, and before its end
  have fromLeft : f.left = middleLeft ++ backLefts.reverse :=
    List.append_cancel_left (front.left.symm.trans (isLeft.trans (List.append_assoc _ _ _)))
  have fromRight : f.right = middleRight ++ backRights.reverse :=
    List.append_cancel_left (front.right.symm.trans (isRight.trans (List.append_assoc _ _ _)))
  have toLeft : b.left.reverse = lefts ++ middleLeft :=
    List.append_cancel_right (back.back.1.symm.trans isLeft)
  have toRight : b.right.reverse = rights ++ middleRight :=
    List.append_cancel_right (back.back.2.symm.trans isRight)
  have among : (middleLeft ++ middleRight).Pairwise before := by
    have short : (middleLeft ++ middleRight).length ≤ 1 := by
      rw [List.length_append]
      omega
    match middleLeft ++ middleRight, short with
    | [], _ => exact List.Pairwise.nil
    | [x], _ => exact List.pairwise_singleton _ x
  refine ⟨_, result, ?_⟩
  rw [List.append_assoc f.taken]
  refine List.pairwise_append.mpr ⟨List.pairwise_append.mpr ⟨leads.taken, among, ?_⟩,
    List.pairwise_reverse.mpr trails.taken, ?_⟩
  · intro x early y between
    apply leads.rest x early
    rw [fromLeft, fromRight]
    exact (List.mem_append.mp between).imp (List.mem_append_left _) (List.mem_append_left _)
  · intro x first y last
    have late := List.mem_reverse.mp last
    rcases List.mem_append.mp first with early | between
    · apply leads.rest x early
      rw [fromLeft, fromRight]
      exact (List.mem_append.mp (back.taken.mem_iff.mp late)).imp
        (fun listed => List.mem_append_right _ (List.mem_reverse.mpr listed))
        (fun listed => List.mem_append_right _ (List.mem_reverse.mpr listed))
    · apply trails.rest y late
      rw [← @List.mem_reverse _ _ b.left, ← @List.mem_reverse _ _ b.right, toLeft, toRight]
      exact (List.mem_append.mp between).imp (List.mem_append_right _) (List.mem_append_right _)

end BothWays

theorem mergeBothWays_perm {left right merged : List α}
    (ran : mergeBothWays compare left right = some merged) : merged.Perm (left ++ right) := by
  obtain ⟨_, _, front⟩ := @mergeSteps_splits _ (fun l r => less compare r l) left.length
    left right
  obtain ⟨_, _, back⟩ := @mergeSteps_splits _ (fun l r => !less compare r l) left.length
    left.reverse right.reverse
  exact meet_perm front back ran

theorem mergeBothWays_arranges (refines : Refines before compare) {left right : List α}
    (shorter : left.length ≤ right.length) (long : right.length ≤ left.length + 1)
    (guided : ∀ l ∈ left, ∀ r ∈ right, Guides compare before l r)
    (first : left.Pairwise before) (second : right.Pairwise before) :
    Arranges before (mergeBothWays compare left right) := by
  obtain ⟨_, _, front⟩ := @mergeSteps_splits _ (fun l r => less compare r l) left.length
    left right
  obtain ⟨_, _, back⟩ := @mergeSteps_splits _ (fun l r => !less compare r l) left.length
    left.reverse right.reverse
  have leads := @mergeSteps_leads _ _ _ refines.trans left.length _ _ guided first second
  have trails := @mergeSteps_leads _ (fun a b => before b a) (fun l r => !less compare r l)
    (fun a b c ab bc => refines.trans c b a bc ab) left.length left.reverse right.reverse
    (fun l inLeft r inRight => by
      have here := guided l (List.mem_reverse.mp inLeft) r (List.mem_reverse.mp inRight)
      unfold Guides at here
      cases order : less compare r l <;> simpa [order] using here)
    (List.pairwise_reverse.mpr first) (List.pairwise_reverse.mpr second)
  exact meet_arranges front back refines leads trails shorter long
    (mergeSteps_length (Nat.le_refl _) shorter)
    (mergeSteps_length (Nat.le_of_eq List.length_reverse.symm)
      (by rw [List.length_reverse]; exact shorter))

end Sorting

end SchemaPack
