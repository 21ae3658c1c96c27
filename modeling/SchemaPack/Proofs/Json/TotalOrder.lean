import SchemaPack.Proofs.Json.Order
import SchemaPack.Proofs.Number.Rounding

namespace SchemaPack

/-- How the ends of a chain compare when neither step descends: as the first step that ascends. -/
def Chained (first second ends : Ordering) : Prop :=
  first ≠ .gt → second ≠ .gt → ends = first.then second

theorem Chained.le {first second ends : Ordering} (chained : Chained first second ends)
    (up : first ≠ .gt) (on : second ≠ .gt) : ends ≠ .gt := by
  rw [chained up on]
  cases first with
  | lt => exact nofun
  | eq => exact on
  | gt => exact absurd rfl up

theorem chained_of_trans {α : Type} (compare : α → α → Ordering) [Std.TransCmp compare]
    (a b c : α) : Chained (compare a b) (compare b c) (compare a c) := by
  intro first second
  cases here : compare a b with
  | lt => exact Std.TransCmp.lt_of_lt_of_isLE here (Ordering.isLE_iff_ne_gt.mpr second)
  | eq => exact Std.TransCmp.congr_left here
  | gt => exact absurd here first

/-- Lexicographic comparison keeps chains. Later parts matter only where the first are equal. -/
theorem Chained.then {p q r p' q' r' : Ordering} (heads : Chained p q r)
    (tails : p = .eq → q = .eq → Chained p' q' r') :
    Chained (p.then p') (q.then q') (r.then r') := by
  intro first second
  cases p with
  | gt => exact absurd rfl first
  | lt =>
    cases q with
    | gt => exact absurd rfl second
    | lt | eq =>
      rw [heads nofun nofun]
      rfl
  | eq =>
    cases q with
    | gt => exact absurd rfl second
    | lt =>
      rw [heads nofun nofun]
      cases p' with
      | lt | eq => rfl
      | gt => exact absurd rfl first
    | eq =>
      rw [heads nofun nofun]
      exact tails rfl rfl first second

namespace Number

/-- Among these numbers equality is transitive. -/
def Separated (numbers : List Number) : Prop :=
  ∀ x ∈ numbers, ∀ y ∈ numbers, ∀ z ∈ numbers,
    x.compare y = .eq → y.compare z = .eq → x.compare z = .eq

instance : DecidablePred Separated := fun numbers =>
  inferInstanceAs (Decidable (∀ x ∈ numbers, ∀ y ∈ numbers, ∀ z ∈ numbers,
    x.compare y = .eq → y.compare z = .eq → x.compare z = .eq))

/-- As doubles two numbers are in order or the same, never the other way round. -/
theorem compare_eq_then (x y : Number) :
    x.compare y = (Ord.compare x.units y.units).then (x.compare y) := by
  have doubled : ∀ o : Ordering, o = o.then o := by
    intro o
    cases o <;> rfl
  cases x with
  | real => exact doubled _
  | integer n hn =>
    cases y with
    | real => exact doubled _
    | integer m hm =>
      cases doubles : Ord.compare (integer n hn).units (integer m hm).units with
      | eq => rfl
      | lt =>
        have lt := Std.compare_eq_lt.mp doubles
        apply Std.compare_eq_lt.mpr
        apply Int.lt_of_not_ge
        intro ge
        have reversed : (integer m hm).units ≤ (integer n hn).units :=
          units_mono (Int.mul_le_mul_of_nonneg_right ge (Int.le_of_lt Binary64.one_pos))
        omega
      | gt =>
        have gt := Std.compare_eq_gt.mp doubles
        apply Std.compare_eq_gt.mpr
        apply Int.lt_of_not_ge
        intro ge
        have reversed : (integer n hn).units ≤ (integer m hm).units :=
          units_mono (Int.mul_le_mul_of_nonneg_right ge (Int.le_of_lt Binary64.one_pos))
        omega

theorem compare_real {x : Binary64} {y : Number} (same : (real x).units = y.units) :
    (real x).compare y = .eq := by
  cases y with
  | integer | real => exact Std.compare_eq_iff_eq.mpr same

/-- What breaks the order is a double that equals, once they are rounded, two integers. -/
theorem separated_iff {numbers : List Number} :
    Separated numbers ↔ ∀ f n hn m hm, real f ∈ numbers → integer n hn ∈ numbers →
      integer m hm ∈ numbers → (integer n hn).units = f.units →
      (integer m hm).units = f.units → n = m := by
  constructor
  · intro apart f n hn m hm isF isN isM left right
    have toF : (integer n hn).compare (real f) = .eq := Std.compare_eq_iff_eq.mpr left
    have fromF : (real f).compare (integer m hm) = .eq := Std.compare_eq_iff_eq.mpr right.symm
    exact Std.compare_eq_iff_eq.mp (apart _ isN _ isF _ isM toF fromF)
  · intro apart x isX y isY z isZ first second
    have same := (units_eq_of_compare first).trans (units_eq_of_compare second)
    cases x with
    | real f => exact compare_real same
    | integer n hn =>
      cases z with
      | real g => exact Std.compare_eq_iff_eq.mpr same
      | integer m hm =>
        apply Std.compare_eq_iff_eq.mpr
        cases y with
        | integer k hk =>
          exact (Std.compare_eq_iff_eq.mp first).trans (Std.compare_eq_iff_eq.mp second)
        | real f =>
          exact apart f n hn m hm isY isX isZ (units_eq_of_compare first)
            (units_eq_of_compare second).symm

theorem chained {numbers : List Number} (apart : Separated numbers) {x y z : Number}
    (isX : x ∈ numbers) (isY : y ∈ numbers) (isZ : z ∈ numbers) :
    Chained (x.compare y) (y.compare z) (x.compare z) := by
  have flip : ∀ {a b : Number}, a.compare b = .eq → b.compare a = .eq := by
    intro a b same
    rw [a.compare_swap b, same]
    rfl
  rw [x.compare_eq_then y, y.compare_eq_then z, x.compare_eq_then z]
  refine (chained_of_trans _ _ _ _).then fun first second => ?_
  have left : x.units = y.units := Std.compare_eq_iff_eq.mp first
  have right : y.units = z.units := Std.compare_eq_iff_eq.mp second
  -- a double among them equals the other two, which then are equal as well
  cases x with
  | real f =>
    have toY := compare_real left
    have toZ := compare_real (left.trans right)
    rw [toY, toZ, apart y isY _ isX z isZ (flip toY) toZ]
    exact fun _ _ => rfl
  | integer n hn =>
    cases y with
    | real f =>
      have toX := compare_real left.symm
      have toZ := compare_real right
      rw [flip toX, toZ, apart _ isX _ isY z isZ (flip toX) toZ]
      exact fun _ _ => rfl
    | integer m hm =>
      cases z with
      | real f =>
        have toX := compare_real (left.trans right).symm
        have toY := compare_real right.symm
        rw [flip toX, flip toY, apart _ isX _ isZ _ isY (flip toX) toY]
        exact fun _ _ => rfl
      | integer k hk => exact chained_of_trans Ord.compare n m k

end Number

namespace Json

mutual

/-- The numbers at any depth of a value. -/
def numbers : Json → List Number
  | .number value => [value]
  | .array items => numbersOfItems items
  | .object members => numbersOfMembers members
  | .null | .bool _ | .string _ => []

def numbersOfItems : List Json → List Number
  | [] => []
  | item :: rest => numbers item ++ numbersOfItems rest

def numbersOfMembers : List (String × Json) → List Number
  | [] => []
  | (_, value) :: rest => numbers value ++ numbersOfMembers rest

end

theorem numbersOfItems_eq (items : List Json) : numbersOfItems items = items.flatMap numbers := by
  induction items with
  | nil => rfl
  | cons item rest ih => rw [numbersOfItems, ih, List.flatMap_cons]

theorem numbers_subset_numbersOfItems {value : Json} {values : List Json}
    (listed : value ∈ values) : value.numbers ⊆ numbersOfItems values := by
  intro x isX
  rw [numbersOfItems_eq, List.mem_flatMap]
  exact ⟨value, listed, isX⟩

theorem numbersOfMembers_eq (members : Members) :
    numbersOfMembers members = members.flatMap fun entry => entry.2.numbers := by
  induction members with
  | nil => rfl
  | cons entry rest ih => rw [numbersOfMembers, ih, List.flatMap_cons]

mutual

theorem numbers_sortMembers (a : Json) {x : Number} (inside : x ∈ a.sortMembers.numbers) :
    x ∈ a.numbers := by
  cases a with
  | array items => exact numbersOfItems_sortItems items inside
  | object members =>
    rw [sortMembers, numbers, numbersOfMembers_eq, List.mem_flatMap] at inside
    obtain ⟨entry, listed, within⟩ := inside
    have permuted := (insertionSort_perm _ _).mem_iff.mp listed
    apply numbersOfMembers_sortEntries members
    rw [numbersOfMembers_eq, List.mem_flatMap]
    exact ⟨entry, permuted, within⟩
  | null | bool | number | string => exact inside

theorem numbersOfItems_sortItems (items : List Json) {x : Number}
    (inside : x ∈ numbersOfItems (sortItems items)) : x ∈ numbersOfItems items := by
  match items with
  | [] => exact inside
  | item :: rest =>
    rw [sortItems, numbersOfItems, List.mem_append] at inside
    rw [numbersOfItems, List.mem_append]
    exact inside.imp (numbers_sortMembers item) (numbersOfItems_sortItems rest)

theorem numbersOfMembers_sortEntries (members : List (String × Json)) {x : Number}
    (inside : x ∈ numbersOfMembers (sortEntries members)) : x ∈ numbersOfMembers members := by
  match members with
  | [] => exact inside
  | (name, value) :: rest =>
    rw [sortEntries, numbersOfMembers, List.mem_append] at inside
    rw [numbersOfMembers, List.mem_append]
    exact inside.imp (numbers_sortMembers value) (numbersOfMembers_sortEntries rest)

end

theorem compareSorted_eq_then (a b : Json) :
    compareSorted a b = (Ord.compare a.rank b.rank).then (compareSorted a b) := by
  cases ranks : Ord.compare a.rank b.rank with
  | eq => rfl
  | lt =>
    rw [compareSorted_of_rank_ne (Nat.ne_of_lt (Std.compare_eq_lt.mp ranks))]
    exact ranks
  | gt =>
    rw [compareSorted_of_rank_ne (Nat.ne_of_gt (Std.compare_eq_gt.mp ranks))]
    exact ranks

section Chains

variable {numbers : List Number}

mutual

theorem compareSorted_chained (apart : Number.Separated numbers) (a b c : Json)
    (inA : a.numbers ⊆ numbers) (inB : b.numbers ⊆ numbers) (inC : c.numbers ⊆ numbers) :
    Chained (compareSorted a b) (compareSorted b c) (compareSorted a c) := by
  rw [compareSorted_eq_then a b, compareSorted_eq_then b c, compareSorted_eq_then a c]
  refine (chained_of_trans _ a.rank b.rank c.rank).then fun first second => ?_
  have left : a.rank = b.rank := Std.compare_eq_iff_eq.mp first
  have right : b.rank = c.rank := Std.compare_eq_iff_eq.mp second
  have before := kindred_of_rank left
  have after := kindred_of_rank right
  cases a with
  | null =>
    cases before
    cases after
    exact fun _ _ => rfl
  | bool x =>
    cases before with | bool _ y =>
    cases after with | bool _ z =>
    exact chained_of_trans Ord.compare x y z
  | number x =>
    cases before with | number _ y =>
    cases after with | number _ z =>
    exact Number.chained apart (inA List.mem_cons_self) (inB List.mem_cons_self)
      (inC List.mem_cons_self)
  | string x =>
    cases before with | string _ y =>
    cases after with | string _ z =>
    exact chained_of_trans Ord.compare x y z
  | array as =>
    cases before with | array _ bs =>
    cases after with | array _ cs =>
    exact compareItems_chained apart as bs cs inA inB inC
  | object as =>
    cases before with | object _ bs =>
    cases after with | object _ cs =>
    exact compareEntries_chained apart as bs cs inA inB inC

theorem compareItems_chained (apart : Number.Separated numbers) (as bs cs : List Json)
    (inA : numbersOfItems as ⊆ numbers) (inB : numbersOfItems bs ⊆ numbers)
    (inC : numbersOfItems cs ⊆ numbers) :
    Chained (compareItems as bs) (compareItems bs cs) (compareItems as cs) := by
  match as, bs, cs with
  | [], [], [] => exact fun _ _ => rfl
  | [], [], _ :: _ => exact fun _ _ => rfl
  | [], _ :: _, _ :: _ => exact fun _ _ => rfl
  | [], _ :: _, [] => exact fun _ second => absurd rfl second
  | _ :: _, [], _ => exact fun first _ => absurd rfl first
  | _ :: _, _ :: _, [] => exact fun _ second => absurd rfl second
  | a :: as, b :: bs, c :: cs =>
    rw [numbersOfItems, List.append_subset] at inA inB inC
    exact (compareSorted_chained apart a b c inA.1 inB.1 inC.1).then fun _ _ =>
      compareItems_chained apart as bs cs inA.2 inB.2 inC.2

theorem compareEntries_chained (apart : Number.Separated numbers)
    (as bs cs : List (String × Json)) (inA : numbersOfMembers as ⊆ numbers)
    (inB : numbersOfMembers bs ⊆ numbers) (inC : numbersOfMembers cs ⊆ numbers) :
    Chained (compareEntries as bs) (compareEntries bs cs) (compareEntries as cs) := by
  match as, bs, cs with
  | [], [], [] => exact fun _ _ => rfl
  | [], [], _ :: _ => exact fun _ _ => rfl
  | [], _ :: _, _ :: _ => exact fun _ _ => rfl
  | [], _ :: _, [] => exact fun _ second => absurd rfl second
  | _ :: _, [], _ => exact fun first _ => absurd rfl first
  | _ :: _, _ :: _, [] => exact fun _ second => absurd rfl second
  | (n, a) :: as, (m, b) :: bs, (k, c) :: cs =>
    rw [numbersOfMembers, List.append_subset] at inA inB inC
    refine Chained.then (Chained.then (chained_of_trans _ n m k) fun _ _ => ?_) fun _ _ => ?_
    · exact compareSorted_chained apart a b c inA.1 inB.1 inC.1
    · exact compareEntries_chained apart as bs cs inA.2 inB.2 inC.2

end

theorem compare_chained (apart : Number.Separated numbers) {a b c : Json}
    (inA : a.numbers ⊆ numbers) (inB : b.numbers ⊆ numbers) (inC : c.numbers ⊆ numbers) :
    Chained (compare a b) (compare b c) (compare a c) :=
  compareSorted_chained apart _ _ _ (fun _ inside => inA (numbers_sortMembers a inside))
    (fun _ inside => inB (numbers_sortMembers b inside))
    (fun _ inside => inC (numbers_sortMembers c inside))

end Chains

end Json

namespace Json

theorem dropRepeats_ascending {numbers : List Number} (apart : Number.Separated numbers)
    {last : Json} {values : List Json}
    (inside : ∀ value ∈ last :: values, value.numbers ⊆ numbers)
    (sorted : (last :: values).Pairwise fun a b => compare a b ≠ .gt) :
    (last :: dropRepeats last values).Pairwise fun a b => compare a b = .lt := by
  induction values generalizing last with
  | nil => exact List.pairwise_singleton _ _
  | cons value rest ih =>
    obtain ⟨fromLast, later⟩ := List.pairwise_cons.mp sorted
    have inLast := inside last List.mem_cons_self
    have inRest : ∀ other ∈ value :: rest, other.numbers ⊆ numbers :=
      fun other listed => inside other (List.mem_cons_of_mem last listed)
    rw [dropRepeats]
    split
    · apply ih
      · intro other listed
        rcases List.mem_cons.mp listed with rfl | old
        · exact inLast
        · exact inRest other (List.mem_cons_of_mem value old)
      · apply List.pairwise_cons.mpr
        refine ⟨?_, (List.pairwise_cons.mp later).2⟩
        exact fun other listed => fromLast other (List.mem_cons_of_mem value listed)
    · rename_i fresh
      have up := fromLast value List.mem_cons_self
      have less : compare last value = .lt := by
        cases step : compare last value with
        | lt => rfl
        | eq => exact absurd (equal_comm (beq_iff_eq.mpr step)) fresh
        | gt => exact absurd step up
      apply List.pairwise_cons.mpr
      refine ⟨?_, ih inRest later⟩
      intro other listed
      rcases List.mem_cons.mp listed with rfl | dropped
      · exact less
      · have old := (dropRepeats_sublist value rest).subset dropped
        have step := (List.pairwise_cons.mp later).1 other old
        have chain := compare_chained apart inLast (inRest value List.mem_cons_self)
          (inRest other (List.mem_cons_of_mem value old))
        rw [chain up step, less]
        rfl

theorem isLE_trans_of_separated {values : List Json}
    (apart : Number.Separated (numbersOfItems values)) :
    ∀ a ∈ values, ∀ b ∈ values, ∀ c ∈ values, (compare a b).isLE = true →
      (compare b c).isLE = true → (compare a c).isLE = true := by
  intro a inA b inB c inC first second
  rw [Ordering.isLE_iff_ne_gt] at first second ⊢
  exact (compare_chained apart (numbers_subset_numbersOfItems inA)
    (numbers_subset_numbersOfItems inB) (numbers_subset_numbersOfItems inC)).le first second

theorem sortUnique_ascending {values : List Json}
    (apart : Number.Separated (numbersOfItems values)) :
    ∃ kept, sortUnique values = some kept ∧ kept.Pairwise fun a b => compare a b = .lt := by
  have ordered := isLE_trans_of_separated apart
  refine ⟨_, sortUnique_eq (.inr ordered), ?_⟩
  have sorted := inserted_ascending ordered
  have permuted := inserted_perm values
  cases listed : inserted values with
  | nil => exact List.Pairwise.nil
  | cons first rest =>
    rw [listed] at sorted permuted
    exact dropRepeats_ascending apart
      (fun value member => numbers_subset_numbersOfItems (permuted.mem_iff.mp member)) sorted

/-- The order is reflexive and total. It is transitive, and what is sorted ascends, as long as the
    numbers do not hold a double and two different integers that are equal to it as doubles. -/
theorem compare_ordered (a b c : Json) (values : List Json) :
    compare a a = .eq ∧
      compare b a = (compare a b).swap ∧
      (Number.Separated (numbersOfItems [a, b, c]) →
        (compare a b ≠ .gt → compare b c ≠ .gt → compare a c ≠ .gt) ∧
          (a.equal b = true → b.equal c = true → a.equal c = true)) ∧
      (Number.Separated (numbersOfItems values) → ∃ kept, sortUnique values = some kept ∧
        kept.Pairwise fun a b => compare a b = .lt) := by
  refine ⟨compare_self a, compare_swap a b, ?_, sortUnique_ascending⟩
  intro apart
  have inside : ∀ value ∈ [a, b, c], value.numbers ⊆ numbersOfItems [a, b, c] :=
    fun _ => numbers_subset_numbersOfItems
  have chain := compare_chained apart (inside a (by simp)) (inside b (by simp)) (inside c (by simp))
  refine ⟨chain.le, ?_⟩
  intro first second
  unfold equal at first second ⊢
  rw [beq_iff_eq] at first second ⊢
  rw [chain (by rw [first]; exact nofun) (by rw [second]; exact nofun), first, second]
  rfl

/-- Integers that doubles do not tell apart are in order where that double is not with them. -/
theorem compare_ordered_integers :
    Number.Separated (numbersOfItems [.number (.integer 9007199254740992),
        .number (.integer 9007199254740993), .number (.integer 9007199254740994)]) ∧
      compare (.number (.integer 9007199254740992)) (.number (.integer 9007199254740994)) ≠ .gt ∧
      ∃ kept, sortUnique [.number (.integer 9007199254740993),
          .number (.integer 9007199254740992)] = some kept ∧
        kept.Pairwise fun a b => compare a b = .lt :=
  have apart := by decide
  have ordered := compare_ordered (.number (.integer 9007199254740992))
    (.number (.integer 9007199254740993)) (.number (.integer 9007199254740994))
    [.number (.integer 9007199254740993), .number (.integer 9007199254740992)]
  ⟨apart, (ordered.2.2.1 apart).1 (by decide) (by decide), ordered.2.2.2 (by decide)⟩

/-- The double 2^53 equals both 2^53 and, once it is rounded, 2^53 + 1. -/
theorem compare_not_transitive :
    compare (.number (.integer 9007199254740993))
        (.number (.real ⟨false, 4503599627370496, 1075, by decide⟩)) = .eq ∧
      compare (.number (.real ⟨false, 4503599627370496, 1075, by decide⟩))
        (.number (.integer 9007199254740992)) = .eq ∧
      compare (.number (.integer 9007199254740993)) (.number (.integer 9007199254740992)) = .gt ∧
      ∃ kept, sortUnique [.number (.integer 9007199254740993),
          .number (.real ⟨false, 4503599627370496, 1075, by decide⟩),
          .number (.integer 9007199254740992)] = some kept ∧
        ¬ kept.Pairwise fun a b => compare a b = .lt := by
  refine ⟨by decide +kernel, by decide +kernel, by decide +kernel,
    [.number (.integer 9007199254740993), .number (.integer 9007199254740992)],
    by decide +kernel, by decide +kernel⟩

end Json

end SchemaPack
