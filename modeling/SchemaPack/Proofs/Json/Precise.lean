import SchemaPack.Proofs.Json.Respelling

namespace SchemaPack

namespace Number

/-- An integer, or a double that no two integers are rounded to. -/
def Precise : Number → Prop
  | .integer _ _ => True
  | .real x => ∀ n hn m hm, (integer n hn).units = x.units → (integer m hm).units = x.units → n = m

theorem toInt_congr {x y : Number} (same : x.exact = y.exact) (rounding : Rounding) :
    x.toInt rounding = y.toInt rounding := by
  cases rounding with
  | down =>
    have here := (x.le_toInt_down _).mp (Int.le_refl (x.toInt .down))
    have there := (y.le_toInt_down _).mp (Int.le_refl (y.toInt .down))
    rw [same] at here
    rw [← same] at there
    exact Int.le_antisymm ((y.le_toInt_down _).mpr here) ((x.le_toInt_down _).mpr there)
  | up =>
    have here := (x.toInt_up_le _).mp (Int.le_refl (x.toInt .up))
    have there := (y.toInt_up_le _).mp (Int.le_refl (y.toInt .up))
    rw [same] at here
    rw [← same] at there
    exact Int.le_antisymm ((x.toInt_up_le _).mpr there) ((y.toInt_up_le _).mpr here)

theorem isIntegral_congr {x y : Number} (same : x.exact = y.exact) :
    x.isIntegral = y.isIntegral := by
  rw [Bool.eq_iff_iff, isIntegral_iff, isIntegral_iff, same]

/-- A double that equals an integer, and that no other integer is rounded to. -/
def StandsFor (x : Binary64) (n : Int) : Prop :=
  x.isIntegral = true ∧ x.floor = n ∧ ∀ m hm, (integer m hm).units = x.units → m = n

open Classical in
/-- A double that stands for an integer is spelled as the integer. -/
noncomputable def spelled : Number → Number
  | .integer n representable => .integer n representable
  | .real x =>
    if whole : Representable x.floor ∧ StandsFor x x.floor then .integer x.floor whole.1
    else .real x

theorem spelled_of_standsFor {x : Binary64} {n : Int} (representable : Representable n)
    (stands : StandsFor x n) : (real x).spelled = .integer n representable := by
  obtain ⟨_, rfl, _⟩ := id stands
  rw [spelled, dif_pos ⟨representable, stands⟩]

theorem spelled_cases (x : Number) : x.spelled = x ∨
    ∃ f n hn, x = .real f ∧ StandsFor f n ∧ x.spelled = .integer n hn := by
  cases x with
  | integer => exact .inl rfl
  | real f =>
    by_cases whole : Representable f.floor ∧ StandsFor f f.floor
    · exact .inr ⟨f, f.floor, whole.1, rfl, whole.2, spelled_of_standsFor whole.1 whole.2⟩
    · exact .inl (dif_neg whole)

theorem spelled_exact (x : Number) : x.spelled.exact = x.exact := by
  rcases x.spelled_cases with same | ⟨f, n, hn, rfl, stands, spelling⟩
  · rw [same]
  · have value := exact_eq_of_isIntegral (x := .real f) stands.1 .down
    rw [spelling, value]
    exact congrArg (· * (Binary64.one : Int)) stands.2.1.symm

theorem spelled_units (x : Number) : x.spelled.units = x.units :=
  units_eq_of_exact (spelled_exact x)

theorem compare_eq_of_standsFor {f : Binary64} {n : Int} {hn : Representable n}
    (stands : StandsFor f n) {y : Number} (same : (real f).units = y.units) :
    (integer n hn).compare y = .eq := by
  have here : (integer n hn).units = f.units := by
    rw [← spelled_of_standsFor hn stands, spelled_units]
    rfl
  cases y with
  | real => exact Std.compare_eq_iff_eq.mpr (here.trans same)
  | integer m hm => exact Std.compare_eq_iff_eq.mpr (stands.2.2 m hm same.symm).symm

theorem compare_spelled (x y : Number) : x.spelled.compare y.spelled = x.compare y := by
  rw [compare_eq_then, x.compare_eq_then, spelled_units, spelled_units]
  cases units : Ord.compare x.units y.units with
  | lt | gt => rfl
  | eq =>
    have same : x.units = y.units := Std.compare_eq_iff_eq.mp units
    change x.spelled.compare y.spelled = x.compare y
    rcases x.spelled_cases with left | ⟨f, n, hn, rfl, stands, left⟩
    · rcases y.spelled_cases with right | ⟨f, n, hn, rfl, stands, right⟩
      · rw [left, right]
      · have equal := @compare_eq_of_standsFor f n hn stands x same.symm
        rw [left, right, compare_swap (integer n hn), equal, compare_swap (real f),
          compare_real same.symm]
    · rw [left, compare_real same]
      exact compare_eq_of_standsFor stands (same.trans (spelled_units y).symm)

theorem respelling_spelled : Json.Respelling spelled where
  compare := compare_spelled
  integral := fun x => isIntegral_congr (spelled_exact x)
  toInt := fun x rounding => toInt_congr (spelled_exact x) rounding

theorem representable_of_precise {x : Binary64} (precise : (real x).Precise) {n : Int}
    {hn : Representable n} (same : (integer n hn).units = x.units) :
    Representable (roundToBinary64 n) := by
  have low : roundToBinary64 (-9223372036854775808) = -9223372036854775808 := by decide +kernel
  have high : roundToBinary64 18446744073709551615 = 18446744073709551616 := by decide +kernel
  have next : roundToBinary64 18446744073709551614 = 18446744073709551616 := by decide +kernel
  have above := roundToBinary64_mono hn.1
  have below := @roundToBinary64_mono n 18446744073709551615 (by have := hn.2; omega)
  rw [low] at above
  rw [high] at below
  refine ⟨above, Int.lt_iff_le_and_ne.mpr ⟨below, ?_⟩⟩
  -- two integers are rounded to the double beyond the last word
  intro beyond
  have first : (integer 18446744073709551615).units = x.units := by
    rw [← same, units, units, high, beyond]
  have second : (integer 18446744073709551614).units = x.units := by
    rw [← same, units, units, next, beyond]
  cases precise _ _ _ _ first second

theorem standsFor_of_precise {x : Binary64} (precise : (real x).Precise) {n : Int}
    {hn : Representable n} (same : (integer n hn).units = x.units) : StandsFor x n := by
  have value : (real x).exact = roundToBinary64 n * Binary64.one := same.symm
  obtain ⟨integral, floor⟩ := exact_eq_mul_iff.mp value
  have rounded : (integer _ (representable_of_precise precise same)).units = x.units :=
    units_eq_of_exact (b := .real x) value.symm
  have whole : n = roundToBinary64 n := precise _ _ _ _ same rounded
  exact ⟨integral, floor.trans whole.symm, fun m hm also => precise m hm n hn also same⟩

/-- Equal numbers that are precise are spelled the same. -/
theorem spelled_eq_of_compare {x y : Number} (left : x.Precise) (right : y.Precise)
    (same : x.compare y = .eq) : x.spelled = y.spelled := by
  have units := units_eq_of_compare same
  cases x with
  | integer n hn =>
    cases y with
    | integer m hm =>
      have integers : n = m := Std.compare_eq_iff_eq.mp same
      subst integers
      rfl
    | real g => exact (spelled_of_standsFor hn (standsFor_of_precise right units)).symm
  | real f =>
    cases y with
    | integer m hm => exact spelled_of_standsFor hm (standsFor_of_precise left units.symm)
    | real g =>
      by_cases zero : f.units = 0
      · have none : (integer 0).units = 0 := Int.zero_mul _
        rw [spelled_of_standsFor (by decide) (standsFor_of_precise left (none.trans zero.symm)),
          spelled_of_standsFor _ (standsFor_of_precise right (none.trans (zero.symm.trans units)))]
      · rw [Binary64.eq_of_units units zero]

end Number

namespace Json

/-- No two integers are rounded to a double that occurs in the value. -/
def Precise (a : Json) : Prop := ∀ x ∈ a.numbers, x.Precise

section Equality

variable {a b : Json}

theorem precise_array {items : List Json} :
    (array items).Precise ↔ ∀ item ∈ items, item.Precise := by
  simp only [Precise, numbers, numbersOfItems_eq, List.mem_flatMap, forall_exists_index, and_imp]
  exact ⟨fun all item listed x => all x item listed, fun each x item listed => each item listed x⟩

theorem precise_object {members : Members} :
    (object members).Precise ↔ ∀ entry ∈ members, entry.2.Precise := by
  simp only [Precise, numbers, numbersOfMembers_eq, List.mem_flatMap, forall_exists_index, and_imp]
  exact ⟨fun all entry listed x => all x entry listed,
    fun each x entry listed => each entry listed x⟩

theorem separated_of_precise {values : List Json} (precise : ∀ value ∈ values, value.Precise) :
    Number.Separated (numbersOfItems values) := by
  refine Number.separated_iff.mpr fun f n hn m hm isF _ _ left right => ?_
  exact precise_array.mpr precise _ isF n hn m hm left right

theorem orderable_of_precise {values : List Json} (precise : ∀ value ∈ values, value.Precise) :
    Orderable values := .inr (isLE_trans_of_separated (separated_of_precise precise))

theorem Precise.get? {members : Members} (precise : (object members).Precise) {name : String}
    {value : Json} (found : members.get? name = some value) : value.Precise :=
  precise_object.mp precise (name, value) (Members.mem_of_get? found)

theorem Precise.of_get? {node : Json} (precise : node.Precise) {name : String} {value : Json}
    (found : node.get? name = some value) : value.Precise := by
  cases node with
  | object members => exact precise.get? found
  | null | bool | number | string | array => cases found

theorem Literal.precise (literal : a.Literal) : a.Precise := by
  intro x inside
  cases x with
  | integer => trivial
  | real => exact absurd rfl (List.any_eq_false.mp literal.2 _ inside)

theorem Precise.sortMembers (precise : a.Precise) : a.sortMembers.Precise :=
  fun x inside => precise x (numbers_sortMembers a inside)

mutual

theorem respell_eq_of_compareSorted (a b : Json) (left : a.Precise) (right : b.Precise)
    (same : compareSorted a b = .eq) : a.respell Number.spelled = b.respell Number.spelled := by
  have kindred := kindred_of_rank (rank_eq_of_compareSorted same)
  cases a with
  | null =>
    cases kindred
    rfl
  | bool x =>
    cases kindred with | bool _ y =>
    rw [Std.compare_eq_iff_eq.mp (same : Ord.compare x y = .eq)]
  | number x =>
    cases kindred with | number _ y =>
    exact congrArg number (Number.spelled_eq_of_compare (left x List.mem_cons_self)
      (right y List.mem_cons_self) same)
  | string x =>
    cases kindred with | string _ y =>
    rw [Std.compare_eq_iff_eq.mp (same : Ord.compare x y = .eq)]
  | array as =>
    cases kindred with | array _ bs =>
    exact congrArg array (respellItems_eq_of_compare as bs left right same)
  | object as =>
    cases kindred with | object _ bs =>
    exact congrArg object (respellEntries_eq_of_compare as bs left right same)

theorem respellItems_eq_of_compare (as bs : List Json) (left : (array as).Precise)
    (right : (array bs).Precise) (same : compareItems as bs = .eq) :
    respellItems Number.spelled as = respellItems Number.spelled bs := by
  match as, bs with
  | [], [] => rfl
  | a :: as, b :: bs =>
    rw [precise_array, List.forall_mem_cons] at left right
    obtain ⟨first, rest⟩ := Ordering.then_eq_eq.mp same
    rw [respellItems, respellItems, respell_eq_of_compareSorted a b left.1 right.1 first,
      respellItems_eq_of_compare as bs (precise_array.mpr left.2) (precise_array.mpr right.2) rest]

theorem respellEntries_eq_of_compare (as bs : List (String × Json)) (left : (object as).Precise)
    (right : (object bs).Precise) (same : compareEntries as bs = .eq) :
    respellEntries Number.spelled as = respellEntries Number.spelled bs := by
  match as, bs with
  | [], [] => rfl
  | (n, a) :: as, (m, b) :: bs =>
    rw [precise_object, List.forall_mem_cons] at left right
    obtain ⟨first, rest⟩ := Ordering.then_eq_eq.mp same
    obtain ⟨names, values⟩ := Ordering.then_eq_eq.mp first
    rw [respellEntries, respellEntries, Std.compare_eq_iff_eq.mp names,
      respell_eq_of_compareSorted a b left.1 right.1 values,
      respellEntries_eq_of_compare as bs (precise_object.mpr left.2) (precise_object.mpr right.2)
        rest]

end

end Equality

section Lookup

theorem compareEntries_get? {as bs : Members} (same : compareEntries as bs = .eq)
    (name : String) :
    Option.Rel (fun a b => compareSorted a b = .eq) (as.get? name) (bs.get? name) := by
  induction as generalizing bs with
  | nil =>
    cases bs with
    | nil => exact .none
    | cons => cases same
  | cons a as ih =>
    cases bs with
    | nil => cases same
    | cons b bs =>
      obtain ⟨first, rest⟩ := Ordering.then_eq_eq.mp same
      obtain ⟨names, values⟩ := Ordering.then_eq_eq.mp first
      rw [Members.get?_cons, Members.get?_cons, Std.compare_eq_iff_eq.mp names]
      split
      · exact .some values
      · exact ih rest

theorem get?_sortEntries {members : Members} (distinct : (members.map (·.1)).Nodup)
    (name : String) :
    Members.get? (Members.sorted (sortEntries members)) name =
      (members.get? name).map sortMembers := by
  have names : ((sortEntries members).map (·.1)).Nodup := by
    rwa [sortEntries_eq, names_map]
  have permuted := Members.sorted_perm (sortEntries members)
  rw [← Members.get?_perm names permuted.symm, sortEntries_eq, Members.get?_map]

theorem compare_get? {members others : Members} (left : (members.map (·.1)).Nodup)
    (right : (others.map (·.1)).Nodup) (same : compare (.object members) (.object others) = .eq)
    (name : String) :
    Option.Rel (fun a b => compare a b = .eq) (Members.get? members name)
      (Members.get? others name) := by
  have entries : compareEntries (Members.sorted (sortEntries members))
      (Members.sorted (sortEntries others)) = .eq := same
  have found := compareEntries_get? entries name
  rw [get?_sortEntries left, get?_sortEntries right] at found
  exact rel_of_map found

theorem compare_array {as bs : List Json} (same : compare (.array as) (.array bs) = .eq) :
    List.Forall₂ (fun a b => compare a b = .eq) as bs := by
  change compareItems (sortItems as) (sortItems bs) = .eq at same
  induction as generalizing bs with
  | nil =>
    cases bs with
    | nil => exact .nil
    | cons => cases same
  | cons a as ih =>
    cases bs with
    | nil => cases same
    | cons b bs =>
      obtain ⟨first, rest⟩ := Ordering.then_eq_eq.mp same
      exact .cons first (ih rest)

end Lookup

/-- Data that rules take for the same: it differs in the order of members, and in how integers are
    spelled. -/
structure Interchangeable (a b : Json) : Prop where
  respelled : Respelled Number.spelled a b
  left : a.Precise
  right : b.Precise

namespace Interchangeable

variable {a b c : Json}

theorem refl (distinct : a.Distinct) (precise : a.Precise) : Interchangeable a a :=
  ⟨.refl distinct, precise, precise⟩

theorem symm (same : Interchangeable a b) : Interchangeable b a :=
  ⟨same.respelled.symm, same.right, same.left⟩

theorem trans (first : Interchangeable a b) (second : Interchangeable b c) :
    Interchangeable a c :=
  ⟨first.respelled.trans second.respelled, first.left, second.right⟩

theorem of_compare (left : a.Distinct) (right : b.Distinct) (precise : a.Precise)
    (also : b.Precise) (same : compare a b = .eq) : Interchangeable a b :=
  ⟨⟨left, right, respell_eq_of_compareSorted _ _ precise.sortMembers also.sortMembers same⟩,
    precise, also⟩

end Interchangeable

theorem resemblance_interchangeable : Resemblance Interchangeable where
  refl := fun literal => .refl literal.1 literal.precise
  kindred := fun same => kindred_of_normal same.respelled.same
  bool := fun same => (resemblance_respelled Number.respelling_spelled).bool same.respelled
  string := fun same => (resemblance_respelled Number.respelling_spelled).string same.respelled
  integral := fun same => (resemblance_respelled Number.respelling_spelled).integral same.respelled
  toInt := fun same => (resemblance_respelled Number.respelling_spelled).toInt same.respelled
  empty := fun same => (resemblance_respelled Number.respelling_spelled).empty same.respelled
  compare := fun first second =>
    (resemblance_respelled Number.respelling_spelled).compare first.respelled second.respelled
  array := by
    intro as bs
    constructor
    · rintro ⟨same, left, right⟩
      rw [precise_array] at left right
      induction Respelled.array_iff.mp same with
      | nil => exact .nil
      | cons here rest ih =>
        rw [List.forall_mem_cons] at left right
        exact .cons ⟨here, left.1, right.1⟩ (ih (Respelled.array_iff.mpr rest) left.2 right.2)
    · intro items
      refine ⟨Respelled.array_iff.mpr (items.imp fun _ _ same => same.respelled), ?_, ?_⟩
      · rw [precise_array]
        induction items with
        | nil => nofun
        | cons here _ ih => exact List.forall_mem_cons.mpr ⟨here.left, ih⟩
      · rw [precise_array]
        induction items with
        | nil => nofun
        | cons here _ ih => exact List.forall_mem_cons.mpr ⟨here.right, ih⟩
  get? := by
    intro m n same name
    refine rel_imp (same.respelled.get? name) ?_
    exact fun a b left right value => ⟨value, same.left.get? left, same.right.get? right⟩
  erase := by
    intro m n same name
    have erased : ∀ members : Members, (object members).Precise →
        (object (Members.erase members name)).Precise := by
      intro members precise
      rw [precise_object] at precise ⊢
      exact fun entry listed => precise entry (List.mem_filter.mp listed).1
    exact ⟨(resemblance_respelled Number.respelling_spelled).erase same.respelled name,
      erased m same.left, erased n same.right⟩

end Json

end SchemaPack
