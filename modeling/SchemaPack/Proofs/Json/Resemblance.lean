import Mathlib.Data.List.Forall2
import SchemaPack.Proofs.Json.Distinct
import SchemaPack.Proofs.Json.TotalOrder
import SchemaPack.Schema.Node

namespace SchemaPack

theorem rel_bind {α β : Type} {R : α → α → Prop} {S : β → β → Prop} {f : α → Option β}
    {x y : Option α} (related : Option.Rel R x y)
    (each : ∀ a b, R a b → Option.Rel S (f a) (f b)) : Option.Rel S (x.bind f) (y.bind f) := by
  cases related with
  | some same => exact each _ _ same
  | none => exact .none

theorem any_congr {α : Type} {R : α → α → Prop} {f g : α → Bool} {x y : Option α}
    (related : Option.Rel R x y) (each : ∀ a b, R a b → f a = g b) : x.any f = y.any g := by
  cases related with
  | some same => exact each _ _ same
  | none => rfl

theorem eq_of_rel_eq {α : Type} {x y : Option α} (related : Option.Rel Eq x y) : x = y := by
  cases related with
  | some same => rw [same]
  | none => rfl

theorem rel_refl {α : Type} {R : α → α → Prop} {x : Option α} (each : ∀ a ∈ x, R a a) :
    Option.Rel R x x := by
  cases x with
  | some a => exact .some (each a rfl)
  | none => exact .none

theorem rel_imp {α : Type} {R S : α → α → Prop} {x y : Option α} (related : Option.Rel R x y)
    (each : ∀ a b, x = some a → y = some b → R a b → S a b) : Option.Rel S x y := by
  cases related with
  | some same => exact .some (each _ _ rfl rfl same)
  | none => exact .none

theorem rel_mono {α : Type} {R S : α → α → Prop} {x y : Option α} (related : Option.Rel R x y)
    (weaker : ∀ {a b}, R a b → S a b) : Option.Rel S x y :=
  rel_imp related fun _ _ _ _ => weaker

theorem rel_symm {α : Type} {R S : α → α → Prop} {x y : Option α} (related : Option.Rel R x y)
    (each : ∀ {a b}, R a b → S b a) : Option.Rel S y x := by
  cases related with
  | some same => exact .some (each same)
  | none => exact .none

theorem rel_trans {α β γ : Type} {R : α → β → Prop} {S : β → γ → Prop} {T : α → γ → Prop}
    {x : Option α} {y : Option β} {z : Option γ} (first : Option.Rel R x y)
    (second : Option.Rel S y z) (each : ∀ a b c, R a b → S b c → T a c) : Option.Rel T x z := by
  cases first with
  | some here =>
    cases second with
    | some there => exact .some (each _ _ _ here there)
  | none =>
    cases second with
    | none => exact .none

theorem rel_cases {α : Type} {R : α → α → Prop} {x y : Option α} (related : Option.Rel R x y) :
    (x = none ∧ y = none) ∨ ∃ a b, x = some a ∧ y = some b ∧ R a b := by
  cases related with
  | some same => exact .inr ⟨_, _, rfl, rfl, same⟩
  | none => exact .inl ⟨rfl, rfl⟩

theorem rel_some {α : Type} {R : α → α → Prop} {a : α} {y : Option α}
    (related : Option.Rel R (some a) y) : ∃ b, y = some b ∧ R a b := by
  cases related with
  | some same => exact ⟨_, rfl, same⟩

theorem rel_of_map {α β : Type} {R : β → β → Prop} {f : α → β} {x y : Option α}
    (related : Option.Rel R (x.map f) (y.map f)) :
    Option.Rel (fun a b => R (f a) (f b)) x y := by
  cases x with
  | none =>
    cases y with
    | none => exact .none
    | some => cases related
  | some a =>
    cases y with
    | none => cases related
    | some b =>
      cases related with
      | some same => exact .some same

theorem rel_of_map_eq {α β : Type} {f : α → β} {x y : Option α} (same : x.map f = y.map f) :
    Option.Rel (fun a b => f a = f b) x y :=
  rel_of_map (same ▸ rel_refl fun _ _ => rfl)

theorem isSome_congr {α : Type} {R : α → α → Prop} {x y : Option α}
    (related : Option.Rel R x y) : x.isSome = y.isSome := by
  cases related with
  | some | none => rfl

section Lists

variable {α : Type} {R : α → α → Prop} {as bs : List α}

theorem map_congr_of_forall₂ {β : Type} {f : α → β} (related : List.Forall₂ R as bs)
    (each : ∀ a b, R a b → f a = f b) : as.map f = bs.map f := by
  induction related with
  | nil => rfl
  | cons here _ ih => rw [List.map_cons, List.map_cons, each _ _ here, ih]

theorem all_congr_of_forall₂ {f g : α → Bool} (related : List.Forall₂ R as bs)
    (each : ∀ a b, R a b → f a = g b) : as.all f = bs.all g := by
  induction related with
  | nil => rfl
  | cons here _ ih => rw [List.all_cons, List.all_cons, each _ _ here, ih]

theorem any_congr_of_forall₂ {f g : α → Bool} (related : List.Forall₂ R as bs)
    (each : ∀ a b, R a b → f a = g b) : as.any f = bs.any g := by
  induction related with
  | nil => rfl
  | cons here _ ih => rw [List.any_cons, List.any_cons, each _ _ here, ih]

theorem isEmpty_congr_of_forall₂ (related : List.Forall₂ R as bs) : as.isEmpty = bs.isEmpty := by
  cases related with
  | nil | cons => rfl

end Lists

def Number.isDouble : Number → Bool
  | .integer _ _ => false
  | .real _ => true

namespace Json

/-- A value as rules write them: no object has a name twice, and no number is a double. -/
def Literal (a : Json) : Prop := a.Distinct ∧ a.numbers.any (·.isDouble) = false

instance : DecidablePred Literal := fun a =>
  inferInstanceAs (Decidable (a.Distinct ∧ a.numbers.any (·.isDouble) = false))

theorem literal_integer (n : Int) (representable : Representable n) :
    (number (.integer n representable)).Literal := ⟨trivial, rfl⟩

theorem literal_of_offset? {x y : Number} {delta : Int} (moved : x.offset? delta = some y) :
    (number y).Literal := by
  unfold Number.offset? at moved
  split at moved
  · obtain ⟨_, _, later⟩ := Option.bind_eq_some_iff.mp moved
    obtain ⟨_, _, rfl⟩ := Option.map_eq_some_iff.mp later
    exact literal_integer _ _
  · cases moved

/-- A relation between values that rules do not tell apart when they read them as data. It passes
    on to the parts of related values. -/
structure Resemblance (D : Json → Json → Prop) : Prop where
  refl : ∀ {a}, a.Literal → D a a
  kindred : ∀ {a b}, D a b → Kindred a b
  bool : ∀ {x y}, D (.bool x) (.bool y) → x = y
  string : ∀ {x y}, D (.string x) (.string y) → x = y
  integral : ∀ {x y}, D (.number x) (.number y) → x.isIntegral = y.isIntegral
  toInt : ∀ {x y}, D (.number x) (.number y) → ∀ rounding, x.toInt rounding = y.toInt rounding
  array : ∀ {as bs}, D (.array as) (.array bs) ↔ List.Forall₂ D as bs
  empty : ∀ {m n}, D (.object m) (.object n) → m.isEmpty = n.isEmpty
  get? : ∀ {m n}, D (.object m) (.object n) → ∀ name,
    Option.Rel D (Members.get? m name) (Members.get? n name)
  erase : ∀ {m n}, D (.object m) (.object n) → ∀ name,
    D (.object (Members.erase m name)) (.object (Members.erase n name))
  compare : ∀ {a b c d}, D a b → D c d → a.compare c = b.compare d

theorem resemblance_eq : Resemblance Eq where
  refl := fun _ => rfl
  kindred := by
    rintro a _ rfl
    cases a with
    | null => exact .null
    | bool => exact .bool _ _
    | number => exact .number _ _
    | string => exact .string _ _
    | array => exact .array _ _
    | object => exact .object _ _
  bool := fun same => Json.bool.inj same
  string := fun same => Json.string.inj same
  integral := fun same => by rw [Json.number.inj same]
  toInt := fun same rounding => by rw [Json.number.inj same]
  array := by
    intro as bs
    rw [List.forall₂_eq_eq_eq, Json.array.injEq]
  empty := fun same => by rw [Json.object.inj same]
  get? := by
    intro m n same name
    rw [Json.object.inj same]
    exact rel_refl fun _ _ => rfl
  erase := fun same name => by rw [Json.object.inj same]
  compare := by
    rintro _ _ _ _ rfl rfl
    rfl

namespace Resemblance

variable {D : Json → Json → Prop} (resemblance : Resemblance D) {a b : Json}
include resemblance

theorem isNull (same : D a b) : a.isNull = b.isNull := by
  cases resemblance.kindred same with
  | null | bool | number | string | array | object => rfl

theorem bool? (same : D a b) : a.bool? = b.bool? := by
  cases resemblance.kindred same with
  | bool => exact congrArg some (resemblance.bool same)
  | null | number | string | array | object => rfl

theorem string? (same : D a b) : a.string? = b.string? := by
  cases resemblance.kindred same with
  | string => exact congrArg some (resemblance.string same)
  | null | bool | number | array | object => rfl

theorem number? (same : D a b) :
    Option.Rel (fun x y => D (.number x) (.number y)) a.number? b.number? := by
  cases resemblance.kindred same with
  | number => exact .some same
  | null | bool | string | array | object => exact .none

theorem items? (same : D a b) : Option.Rel (List.Forall₂ D) a.items? b.items? := by
  cases resemblance.kindred same with
  | array => exact .some (resemblance.array.mp same)
  | null | bool | number | string | object => exact .none

theorem members? (same : D a b) :
    Option.Rel (fun m n => D (.object m) (.object n)) a.members? b.members? := by
  cases resemblance.kindred same with
  | object => exact .some same
  | null | bool | number | string | array => exact .none

theorem isTrue (same : D a b) : (a == .bool true) = (b == .bool true) := by
  cases resemblance.kindred same with
  | bool => rw [resemblance.bool same]
  | null | number | string | array | object => rfl

theorem isIntegral (same : D a b) : a.isIntegral = b.isIntegral := by
  cases resemblance.kindred same with
  | number => exact resemblance.integral same
  | null | bool | string | array | object => rfl

theorem typeOf (same : D a b) : a.typeOf = b.typeOf := by
  cases resemblance.kindred same with
  | number => simp only [Json.typeOf, resemblance.integral same]
  | null | bool | string | array | object => rfl

theorem isInstanceOf (same : D a b) (type : InstanceType) :
    a.isInstanceOf type = b.isInstanceOf type := by
  unfold Json.isInstanceOf
  rw [resemblance.isIntegral same, resemblance.typeOf same,
    isSome_congr (resemblance.number? same)]

theorem equal {c d : Json} (same : D a b) (other : D c d) : a.equal c = b.equal d := by
  rw [Json.equal, Json.equal, resemblance.compare same other]

section Numbers

variable {x y : Number} (same : D (.number x) (.number y))
include same

theorem compare_number {z w : Number} (other : D (.number z) (.number w)) :
    x.compare z = y.compare w :=
  resemblance.compare same other

theorem isZero : x.isZero = y.isZero := by
  have zero : D (.number .zero) (.number .zero) := resemblance.refl (literal_integer 0 _)
  rw [Number.isZero, Number.isZero, resemblance.compare_number same zero]

theorem toInt64? (rounding : Rounding) : x.toInt64? rounding = y.toInt64? rounding := by
  rw [Number.toInt64?, Number.toInt64?, resemblance.toInt same]

theorem offset? (delta : Int) : x.offset? delta = y.offset? delta := by
  rw [Number.offset?, Number.offset?, resemblance.integral same, resemblance.toInt64? same]

theorem round (rounding : Rounding) :
    D (.number (x.round rounding)) (.number (y.round rounding)) := by
  rw [Number.round, Number.round, resemblance.toInt same]
  unfold Number.ofInt?
  split
  · exact resemblance.refl (literal_integer _ _)
  · exact same

end Numbers

section Lists

variable {as bs : List Json} (same : List.Forall₂ D as bs)
include same

theorem getD (i : Nat) : D (as.getD i .null) (bs.getD i .null) := by
  induction same generalizing i with
  | nil => exact resemblance.refl ⟨trivial, rfl⟩
  | cons first _ ih =>
    cases i with
    | zero => exact first
    | succ i => exact ih i

theorem comparePlaces : Json.comparePlaces as = Json.comparePlaces bs := by
  funext i j
  exact resemblance.compare (resemblance.getD same i) (resemblance.getD same j)

theorem sort (moved : Sorting.Moved) :
    Option.Rel (List.Forall₂ D) (Json.sort moved as) (Json.sort moved bs) := by
  rw [Json.sort, Json.sort, resemblance.comparePlaces same, same.length_eq]
  cases Sorting.order moved (Json.comparePlaces bs) bs.length with
  | none => exact .none
  | some places =>
    refine .some (List.forall₂_map_left_iff.mpr (List.forall₂_map_right_iff.mpr ?_))
    exact List.forall₂_same.mpr fun i _ => resemblance.getD same i

theorem zip_any {cs ds : List Json} (other : List.Forall₂ D cs ds) :
    (as.zip cs).any (fun pair => pair.1.equal pair.2) =
      (bs.zip ds).any (fun pair => pair.1.equal pair.2) := by
  induction same generalizing cs ds with
  | nil => rfl
  | cons first _ ih =>
    cases other with
    | nil => rfl
    | cons second rest =>
      simp only [List.zip_cons_cons, List.any_cons, resemblance.equal first second, ih rest]

theorem repeats : Json.repeats as = Json.repeats bs := by
  unfold Json.repeats
  cases same with
  | nil => rfl
  | cons first rest => exact resemblance.zip_any (.cons first rest) rest

theorem hasDuplicates : Json.hasDuplicates as = Json.hasDuplicates bs := by
  have sorted := resemblance.sort same .references
  unfold Json.hasDuplicates
  generalize Json.sort .references as = x at sorted ⊢
  generalize Json.sort .references bs = y at sorted ⊢
  cases sorted with
  | some related => exact congrArg some (resemblance.repeats related)
  | none => rfl

theorem dropRepeats {a b : Json} (last : D a b) :
    List.Forall₂ D (Json.dropRepeats a as) (Json.dropRepeats b bs) := by
  induction same generalizing a b with
  | nil => exact .nil
  | cons first rest ih =>
    rw [Json.dropRepeats, Json.dropRepeats, resemblance.equal first last]
    split
    · exact ih last
    · exact .cons first (ih first)

theorem unrepeated : List.Forall₂ D (Json.unrepeated as) (Json.unrepeated bs) := by
  cases same with
  | nil => exact .nil
  | cons first rest => exact .cons first (resemblance.dropRepeats rest first)

theorem sortUnique :
    Option.Rel (List.Forall₂ D) (Json.sortUnique as) (Json.sortUnique bs) := by
  have sorted := resemblance.sort same .values
  unfold Json.sortUnique
  generalize Json.sort .values as = x at sorted ⊢
  generalize Json.sort .values bs = y at sorted ⊢
  cases sorted with
  | some related => exact .some (resemblance.unrepeated related)
  | none => exact .none

theorem mem_string (name : String) : Json.string name ∈ as ↔ Json.string name ∈ bs := by
  induction same with
  | nil => rfl
  | @cons a b _ _ first _ ih =>
    rw [List.mem_cons, List.mem_cons, ih]
    have heads : Json.string name = a ↔ Json.string name = b := by
      constructor
      · rintro rfl
        cases resemblance.kindred first with
        | string => exact congrArg Json.string (resemblance.string first)
      · rintro rfl
        cases resemblance.kindred first with
        | string => exact congrArg Json.string (resemblance.string first).symm
    rw [heads]

end Lists

end Resemblance

/-- Two nodes have related values under a name, or none. -/
def Matches (R : Json → Json → Prop) (x y : Json) (name : String) : Prop :=
  Option.Rel R (x.get? name) (y.get? name)

theorem Matches.contains {R : Json → Json → Prop} {x y : Json} {name : String}
    (same : Matches R x y name) : x.contains name = y.contains name := by
  rw [contains_eq, contains_eq, isSome_congr same]

theorem containsAny_congr {R : String → Json → Json → Prop} {x y : Json} {names : List String}
    (same : ∀ name ∈ names, Matches (R name) x y name) :
    x.containsAny names = y.containsAny names := by
  unfold containsAny
  induction names with
  | nil => rfl
  | cons name rest ih =>
    rw [List.forall_mem_cons] at same
    rw [List.any_cons, List.any_cons, same.1.contains, ih same.2]

namespace Resemblance

variable {D : Json → Json → Prop} (resemblance : Resemblance D) {x y : Json} {name : String}
include resemblance

theorem numberAt? (same : Matches D x y name) :
    Option.Rel (fun a b => D (.number a) (.number b)) (x.numberAt? name) (y.numberAt? name) :=
  rel_bind same fun _ _ => resemblance.number?

theorem arrayAt? (same : Matches D x y name) :
    Option.Rel (List.Forall₂ D) (x.arrayAt? name) (y.arrayAt? name) :=
  rel_bind same fun _ _ => resemblance.items?

theorem objectAt? (same : Matches D x y name) :
    Option.Rel (fun m n => D (.object m) (.object n)) (x.objectAt? name) (y.objectAt? name) :=
  rel_bind same fun _ _ => resemblance.members?

theorem declaredType? (same : Matches D x y "type") : x.declaredType? = y.declaredType? := by
  have text : (x.get? "type").bind (·.string?) = (y.get? "type").bind (·.string?) := by
    apply eq_of_rel_eq
    apply rel_bind same
    intro a b related
    rw [resemblance.string? related]
    exact rel_refl fun _ _ => rfl
  rw [Json.declaredType?, Json.declaredType?, text]

theorem hasType (same : Matches D x y "type") (type : InstanceType) :
    x.hasType type = y.hasType type := by
  rw [Json.hasType, Json.hasType, resemblance.declaredType? same]

theorem zeroAt (same : Matches D x y name) : x.zeroAt name = y.zeroAt name :=
  any_congr (resemblance.numberAt? same) fun _ _ => resemblance.isZero

theorem absentOrZero (same : Matches D x y name) : x.absentOrZero name = y.absentOrZero name := by
  unfold Json.absentOrZero
  rcases rel_cases same with ⟨left, right⟩ | ⟨a, b, left, right, related⟩
  · rw [left, right]
  · rw [left, right]
    exact any_congr (resemblance.number? related) fun _ _ => resemblance.isZero

theorem atMost (same : Matches D x y name) (limit : Int) :
    x.atMost name limit = y.atMost name limit := by
  apply any_congr (resemblance.numberAt? same)
  intro a b related
  rw [resemblance.integral related, resemblance.toInt64? related]

end Resemblance

end Json

end SchemaPack
