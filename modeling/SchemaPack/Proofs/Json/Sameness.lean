import SchemaPack.Proofs.Json.Order
import SchemaPack.Proofs.Number.Rounding

namespace SchemaPack

/-- What is left of a JSON value of whose numbers only a measure is kept. -/
inductive Likeness where
  | null
  | bool (value : Bool)
  | number (value : Int)
  | string (value : String)
  | array (items : List Likeness)
  | object (members : List (String × Likeness))

namespace Json

section Measure

variable (measure : Number → Int)

mutual

def view : Json → Likeness
  | .null => .null
  | .bool value => .bool value
  | .number value => .number (measure value)
  | .string value => .string value
  | .array items => .array (viewItems items)
  | .object members => .object (viewEntries members)

def viewItems : List Json → List Likeness
  | [] => []
  | item :: rest => view item :: viewItems rest

def viewEntries : List (String × Json) → List (String × Likeness)
  | [] => []
  | (name, value) :: rest => (name, view value) :: viewEntries rest

end

/-- The same value, numbers compared by a measure. The order of members does not matter. -/
def SameBy (a b : Json) : Prop := a.sortMembers.view measure = b.sortMembers.view measure

end Measure

theorem sameBy_number {measure : Number → Int} {a b : Number} (same : measure a = measure b) :
    (number a).SameBy measure (number b) :=
  congrArg Likeness.number same

theorem SameBy.trans {measure : Number → Int} {a b c : Json} (first : a.SameBy measure b)
    (second : b.SameBy measure c) : a.SameBy measure c :=
  Eq.trans first second

mutual

theorem view_units_of_exact (a b : Json) (h : a.view Number.exact = b.view Number.exact) :
    a.view Number.units = b.view Number.units := by
  cases a with
  | number x =>
    cases b with
    | number y => exact congrArg Likeness.number (Number.units_eq_of_exact (Likeness.number.inj h))
    | null | bool | string | array | object => cases h
  | array items =>
    cases b with
    | array others =>
      have same := viewItems_units_of_exact items others (Likeness.array.inj h)
      exact congrArg Likeness.array same
    | null | bool | number | string | object => cases h
  | object entries =>
    cases b with
    | object others =>
      have same := viewEntries_units_of_exact entries others (Likeness.object.inj h)
      exact congrArg Likeness.object same
    | null | bool | number | string | array => cases h
  | null | bool | string =>
    cases b <;> cases h
    rfl

theorem viewItems_units_of_exact (items others : List Json)
    (h : viewItems Number.exact items = viewItems Number.exact others) :
    viewItems Number.units items = viewItems Number.units others := by
  match items, others with
  | [], [] => rfl
  | a :: as, b :: bs =>
    obtain ⟨first, rest⟩ := List.cons.inj h
    rw [viewItems, viewItems, view_units_of_exact a b first, viewItems_units_of_exact as bs rest]

theorem viewEntries_units_of_exact (entries others : List (String × Json))
    (h : viewEntries Number.exact entries = viewEntries Number.exact others) :
    viewEntries Number.units entries = viewEntries Number.units others := by
  match entries, others with
  | [], [] => rfl
  | (n, a) :: as, (m, b) :: bs =>
    obtain ⟨first, rest⟩ := List.cons.inj h
    obtain ⟨names, values⟩ := Prod.mk.inj first
    rw [viewEntries, viewEntries, names, view_units_of_exact a b values,
      viewEntries_units_of_exact as bs rest]

end

theorem SameBy.units {a b : Json} (same : a.SameBy Number.exact b) : a.SameBy Number.units b :=
  view_units_of_exact _ _ same

mutual

theorem view_units_of_compareSorted (a b : Json) (h : compareSorted a b = .eq) :
    a.view Number.units = b.view Number.units := by
  have kindred := kindred_of_rank (rank_eq_of_compareSorted h)
  cases a with
  | null =>
    cases kindred
    rfl
  | bool x =>
    cases kindred with
    | bool _ y => exact congrArg Likeness.bool (Std.compare_eq_iff_eq.mp h)
  | number x =>
    cases kindred with
    | number _ y => exact congrArg Likeness.number (Number.units_eq_of_compare h)
  | string x =>
    cases kindred with
    | string _ y => exact congrArg Likeness.string (Std.compare_eq_iff_eq.mp h)
  | array items =>
    cases kindred with
    | array _ others => exact congrArg Likeness.array (viewItems_units_of_compare items others h)
  | object entries =>
    cases kindred with
    | object _ others =>
      exact congrArg Likeness.object (viewEntries_units_of_compare entries others h)

theorem viewItems_units_of_compare (items others : List Json)
    (h : compareItems items others = .eq) :
    viewItems Number.units items = viewItems Number.units others := by
  match items, others with
  | [], [] => rfl
  | a :: as, b :: bs =>
    rw [compareItems, Ordering.then_eq_eq] at h
    rw [viewItems, viewItems, view_units_of_compareSorted a b h.1,
      viewItems_units_of_compare as bs h.2]

theorem viewEntries_units_of_compare (entries others : List (String × Json))
    (h : compareEntries entries others = .eq) :
    viewEntries Number.units entries = viewEntries Number.units others := by
  match entries, others with
  | [], [] => rfl
  | (n, a) :: as, (m, b) :: bs =>
    rw [compareEntries, Ordering.then_eq_eq, Ordering.then_eq_eq] at h
    have names : n = m := Std.compare_eq_iff_eq.mp h.1.1
    rw [viewEntries, viewEntries, names, view_units_of_compareSorted a b h.1.2,
      viewEntries_units_of_compare as bs h.2]

end

/-- Values that count as equal are the same by doubles. -/
theorem sameBy_of_equal {a b : Json} (h : a.equal b = true) : a.SameBy Number.units b :=
  view_units_of_compareSorted _ _ (beq_iff_eq.mp h)

end Json

end SchemaPack
