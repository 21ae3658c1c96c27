import Mathlib.Data.List.Nodup
import SchemaPack.Proofs.Json.Resemblance

namespace SchemaPack

namespace Members

theorem get?_map (members : Members) (f : Json → Json) (name : String) :
    get? (members.map fun entry => (entry.1, f entry.2)) name = (get? members name).map f := by
  induction members with
  | nil => rfl
  | cons entry rest ih =>
    rw [List.map_cons, get?_cons, get?_cons, ih]
    split <;> rfl

theorem mem_iff_get? {members : Members} (distinct : (members.map (·.1)).Nodup)
    {entry : String × Json} : entry ∈ members ↔ members.get? entry.1 = some entry.2 := by
  refine ⟨?_, mem_of_get?⟩
  intro listed
  induction members with
  | nil => cases listed
  | cons first rest ih =>
    rw [List.map_cons, List.nodup_cons] at distinct
    rw [get?_cons]
    rcases List.mem_cons.mp listed with rfl | later
    · rw [if_pos rfl]
    · have other : first.1 ≠ entry.1 := by
        intro same
        exact distinct.1 (same ▸ List.mem_map_of_mem later)
      rw [if_neg other, ih distinct.2 later]

theorem get?_perm {members others : Members} (distinct : (members.map (·.1)).Nodup)
    (perm : members.Perm others) (name : String) : members.get? name = others.get? name := by
  have also : (others.map (·.1)).Nodup := (perm.map _).nodup_iff.mp distinct
  apply Option.ext
  intro value
  have listed := @mem_iff_get? members distinct (name, value)
  have moved := @mem_iff_get? others also (name, value)
  rw [← listed, ← moved, perm.mem_iff]

def sorted (members : Members) : Members := insertionSort (fun a b => Ord.compare a.1 b.1) members

theorem sorted_perm (members : Members) : members.sorted.Perm members := insertionSort_perm _ _

theorem sorted_pairwise (members : Members) :
    members.sorted.Pairwise fun a b => Ord.compare a.1 b.1 ≠ .gt := by
  have : Std.TransCmp fun a b : String × Json => Ord.compare a.1 b.1 :=
    { eq_swap := Std.OrientedCmp.eq_swap, isLE_trans := Std.TransCmp.isLE_trans }
  exact (Sorting.insertionSort_ascending members).imp Ordering.isLE_iff_ne_gt.mp

theorem eq_of_pairwise {members others : Members} (distinct : (members.map (·.1)).Nodup)
    (perm : members.Perm others)
    (first : members.Pairwise fun a b => Ord.compare a.1 b.1 ≠ .gt)
    (second : others.Pairwise fun a b => Ord.compare a.1 b.1 ≠ .gt) : members = others := by
  refine List.Perm.eq_of_pairwise ?_ first second perm
  intro a b listed moved below above
  have names : a.1 = b.1 := by
    apply Std.compare_eq_iff_eq.mp
    cases order : Ord.compare a.1 b.1 with
    | eq => rfl
    | gt => exact absurd order below
    | lt =>
      refine absurd ?_ above
      rw [@Std.OrientedCmp.eq_swap String Ord.compare _ b.1 a.1, order]
      rfl
  have here := (mem_iff_get? distinct).mp listed
  have there := (mem_iff_get? distinct).mp (perm.mem_iff.mpr moved)
  rw [names, there] at here
  exact Prod.ext names (Option.some.inj here).symm

end Members

namespace Json

def Reordered (a b : Json) : Prop := a.sortMembers = b.sortMembers

instance (a b : Json) : Decidable (Reordered a b) := inferInstanceAs (Decidable (_ = _))

theorem sortItems_eq (items : List Json) : sortItems items = items.map sortMembers := by
  induction items with
  | nil => rfl
  | cons item rest ih => rw [sortItems, ih, List.map_cons]

theorem sortEntries_eq (members : Members) :
    sortEntries members = members.map fun entry => (entry.1, entry.2.sortMembers) := by
  induction members with
  | nil => rfl
  | cons entry rest ih => rw [sortEntries, ih, List.map_cons]

section Respell

variable (f : Number → Number)

mutual

def respell : Json → Json
  | .number value => .number (f value)
  | .array items => .array (respellItems items)
  | .object members => .object (respellEntries members)
  | .null => .null
  | .bool value => .bool value
  | .string value => .string value

def respellItems : List Json → List Json
  | [] => []
  | item :: rest => respell item :: respellItems rest

def respellEntries : List (String × Json) → List (String × Json)
  | [] => []
  | (name, value) :: rest => (name, respell value) :: respellEntries rest

end

theorem respellItems_eq (items : List Json) : respellItems f items = items.map (respell f) := by
  induction items with
  | nil => rfl
  | cons item rest ih => rw [respellItems, ih, List.map_cons]

theorem respellEntries_eq (members : Members) :
    respellEntries f members = members.map fun entry => (entry.1, entry.2.respell f) := by
  induction members with
  | nil => rfl
  | cons entry rest ih => rw [respellEntries, ih, List.map_cons]

/-- The form in which two values are the same that differ in the order of members, and in numbers
    only as far as they are spelled the same. -/
def normal (a : Json) : Json := a.sortMembers.respell f

/-- No object has a name twice, and there is no difference but in the order of members and in
    numbers that are spelled the same. -/
structure Respelled (a b : Json) : Prop where
  left : a.Distinct
  right : b.Distinct
  same : a.normal f = b.normal f

end Respell

/-- Another spelling of numbers that tells as much of them as rules go by. -/
structure Respelling (f : Number → Number) : Prop where
  compare : ∀ x y, (f x).compare (f y) = x.compare y
  integral : ∀ x, (f x).isIntegral = x.isIntegral
  toInt : ∀ x rounding, (f x).toInt rounding = x.toInt rounding

theorem respelling_id : Respelling id where
  compare := fun _ _ => rfl
  integral := fun _ => rfl
  toInt := fun _ _ => rfl

mutual

theorem respell_id (a : Json) : a.respell id = a := by
  cases a with
  | array items => rw [respell, respellItems_id items]
  | object members => rw [respell, respellEntries_id members]
  | null | bool | number | string => rfl

theorem respellItems_id (items : List Json) : respellItems id items = items := by
  match items with
  | [] => rfl
  | item :: rest => rw [respellItems, respell_id item, respellItems_id rest]

theorem respellEntries_id (members : List (String × Json)) :
    respellEntries id members = members := by
  match members with
  | [] => rfl
  | (name, value) :: rest => rw [respellEntries, respell_id value, respellEntries_id rest]

end

section Normal

variable {f : Number → Number}

theorem normal_array (items : List Json) :
    (array items).normal f = .array (items.map (normal f)) := by
  rw [normal, sortMembers, respell, sortItems_eq, respellItems_eq, List.map_map]
  rfl

def normalEntries (f : Number → Number) (members : Members) : Members :=
  (Members.sorted (members.map fun entry => (entry.1, entry.2.sortMembers))).map
    fun entry => (entry.1, entry.2.respell f)

theorem normal_object (members : Members) :
    (object members).normal f = .object (normalEntries f members) := by
  rw [normal, sortMembers, respell, sortEntries_eq, respellEntries_eq]
  rfl

theorem normalEntries_perm (members : Members) :
    (normalEntries f members).Perm (members.map fun entry => (entry.1, entry.2.normal f)) := by
  have moved := (Members.sorted_perm (members.map fun entry => (entry.1, entry.2.sortMembers))).map
    fun entry => (entry.1, entry.2.respell f)
  rwa [List.map_map] at moved

theorem names_map (members : Members) (g : Json → Json) :
    (members.map fun entry => (entry.1, g entry.2)).map (·.1) = members.map (·.1) := by
  rw [List.map_map]
  rfl

theorem normalEntries_nodup {members : Members} (distinct : (members.map (·.1)).Nodup) :
    ((normalEntries f members).map (·.1)).Nodup := by
  have names := ((@normalEntries_perm f members).map (·.1)).nodup_iff
  rwa [names, names_map]

theorem normalEntries_get? {members : Members} (distinct : (members.map (·.1)).Nodup)
    (name : String) :
    Members.get? (normalEntries f members) name = (Members.get? members name).map (normal f) := by
  rw [Members.get?_perm (normalEntries_nodup distinct) (normalEntries_perm members),
    Members.get?_map]

theorem normalEntries_pairwise (members : Members) :
    (normalEntries f members).Pairwise fun a b => Ord.compare a.1 b.1 ≠ .gt :=
  List.pairwise_map.mpr (Members.sorted_pairwise _)

theorem rank_respell (a : Json) : (a.respell f).rank = a.rank := by
  cases a with
  | null | bool | number | string | array | object => rfl

theorem rank_normal (a : Json) : (a.normal f).rank = a.rank := by
  rw [normal, rank_respell]
  cases a with
  | null | bool | number | string | array | object => rfl

theorem kindred_of_normal {a b : Json} (same : a.normal f = b.normal f) : Kindred a b := by
  apply kindred_of_rank
  rw [← @rank_normal f a, ← @rank_normal f b, same]

end Normal

section Comparison

variable {f : Number → Number}

mutual

theorem compareSorted_respell (respelling : Respelling f) (a b : Json) :
    compareSorted (a.respell f) (b.respell f) = compareSorted a b := by
  by_cases ranks : a.rank = b.rank
  · have kindred := kindred_of_rank ranks
    cases a with
    | null =>
      cases kindred
      rfl
    | bool =>
      cases kindred
      rfl
    | number x =>
      cases kindred with
      | number _ y => exact respelling.compare x y
    | string =>
      cases kindred
      rfl
    | array items =>
      cases kindred with
      | array _ others => exact compareItems_respell respelling items others
    | object members =>
      cases kindred with
      | object _ others => exact compareEntries_respell respelling members others
  · rw [compareSorted_of_rank_ne ranks, compareSorted_of_rank_ne, rank_respell, rank_respell]
    rwa [rank_respell, rank_respell]

theorem compareItems_respell (respelling : Respelling f) (items others : List Json) :
    compareItems (respellItems f items) (respellItems f others) = compareItems items others := by
  match items, others with
  | [], [] => rfl
  | [], _ :: _ => rfl
  | _ :: _, [] => rfl
  | a :: as, b :: bs =>
    rw [respellItems, respellItems, compareItems, compareItems,
      compareSorted_respell respelling a b, compareItems_respell respelling as bs]

theorem compareEntries_respell (respelling : Respelling f) (members others : List (String × Json)) :
    compareEntries (respellEntries f members) (respellEntries f others) =
      compareEntries members others := by
  match members, others with
  | [], [] => rfl
  | [], _ :: _ => rfl
  | _ :: _, [] => rfl
  | (n, a) :: as, (m, b) :: bs =>
    rw [respellEntries, respellEntries, compareEntries, compareEntries,
      compareSorted_respell respelling a b, compareEntries_respell respelling as bs]

end

theorem compare_eq_normal (respelling : Respelling f) (a b : Json) :
    a.compare b = compareSorted (a.normal f) (b.normal f) :=
  (compareSorted_respell respelling _ _).symm

end Comparison

section Distinct

theorem distinct_array {items : List Json} :
    (array items).Distinct ↔ ∀ item ∈ items, item.Distinct := by
  rw [Distinct]
  induction items with
  | nil => simp [DistinctItems]
  | cons item rest ih => rw [DistinctItems, ih, List.forall_mem_cons]

theorem distinct_object {members : Members} :
    (object members).Distinct ↔
      (members.map (·.1)).Nodup ∧ ∀ entry ∈ members, entry.2.Distinct := by
  rw [Distinct, distinctMembers_iff]

theorem Distinct.get? {members : Members} (distinct : (object members).Distinct) {name : String}
    {value : Json} (found : members.get? name = some value) : value.Distinct :=
  (distinct_object.mp distinct).2 (name, value) (Members.mem_of_get? found)

theorem distinct_of_get? {members : Members} (names : (members.map (·.1)).Nodup)
    (each : ∀ name value, Members.get? members name = some value → value.Distinct) :
    (object members).Distinct :=
  distinct_object.mpr
    ⟨names, fun entry listed => each entry.1 entry.2 ((Members.mem_iff_get? names).mp listed)⟩

end Distinct

namespace Respelled

variable {f : Number → Number} {a b c : Json}

theorem refl (distinct : a.Distinct) : Respelled f a a := ⟨distinct, distinct, rfl⟩

theorem symm (same : Respelled f a b) : Respelled f b a := ⟨same.right, same.left, same.same.symm⟩

theorem trans (first : Respelled f a b) (second : Respelled f b c) : Respelled f a c :=
  ⟨first.left, second.right, first.same.trans second.same⟩

theorem array_iff {as bs : List Json} :
    Respelled f (.array as) (.array bs) ↔ List.Forall₂ (Respelled f) as bs := by
  constructor
  · rintro ⟨left, right, same⟩
    rw [distinct_array] at left right
    rw [normal_array, normal_array, Json.array.injEq] at same
    induction as generalizing bs with
    | nil =>
      cases bs with
      | nil => exact .nil
      | cons => cases same
    | cons a as ih =>
      cases bs with
      | nil => cases same
      | cons b bs =>
        rw [List.map_cons, List.map_cons] at same
        obtain ⟨first, rest⟩ := List.cons.inj same
        rw [List.forall_mem_cons] at left right
        exact .cons ⟨left.1, right.1, first⟩ (ih left.2 right.2 rest)
  · intro related
    refine ⟨?_, ?_, ?_⟩
    · rw [distinct_array]
      induction related with
      | nil => nofun
      | cons here _ ih => exact List.forall_mem_cons.mpr ⟨here.left, ih⟩
    · rw [distinct_array]
      induction related with
      | nil => nofun
      | cons here _ ih => exact List.forall_mem_cons.mpr ⟨here.right, ih⟩
    · rw [normal_array, normal_array,
        map_congr_of_forall₂ related fun _ _ same => same.same]

theorem get? {members others : Members} (same : Respelled f (.object members) (.object others))
    (name : String) :
    Option.Rel (Respelled f) (Members.get? members name) (Members.get? others name) := by
  have left := (distinct_object.mp same.left).1
  have right := (distinct_object.mp same.right).1
  have entries := same.same
  rw [normal_object, normal_object, Json.object.injEq] at entries
  have found : Members.get? (normalEntries f members) name =
      Members.get? (normalEntries f others) name := by rw [entries]
  rw [normalEntries_get? left, normalEntries_get? right] at found
  cases here : Members.get? members name with
  | none =>
    rw [here, Option.map_none] at found
    rw [Option.map_eq_none_iff.mp found.symm]
    exact .none
  | some value =>
    rw [here, Option.map_some] at found
    obtain ⟨other, there, normals⟩ := Option.map_eq_some_iff.mp found.symm
    rw [there]
    exact .some ⟨same.left.get? here, same.right.get? there, normals.symm⟩

theorem object {members others : Members} (left : (members.map (·.1)).Nodup)
    (right : (others.map (·.1)).Nodup)
    (each : ∀ name, Option.Rel (Respelled f) (Members.get? members name)
      (Members.get? others name)) : Respelled f (.object members) (.object others) := by
  have pairs : ∀ name, (Members.get? members name).map (normal f) =
      (Members.get? others name).map (normal f) := by
    intro name
    rcases rel_cases (each name) with ⟨here, there⟩ | ⟨_, _, here, there, related⟩
    · rw [here, there]
    · rw [here, there, Option.map_some, Option.map_some, related.same]
  refine ⟨?_, ?_, ?_⟩
  · apply distinct_of_get? left
    intro name value found
    rcases rel_cases (each name) with ⟨here, _⟩ | ⟨_, _, here, _, related⟩
    · cases here.symm.trans found
    · cases here.symm.trans found
      exact related.left
  · apply distinct_of_get? right
    intro name value found
    rcases rel_cases (each name) with ⟨_, there⟩ | ⟨_, _, _, there, related⟩
    · cases there.symm.trans found
    · cases there.symm.trans found
      exact related.right
  · rw [normal_object, normal_object]
    have first := @normalEntries_nodup f _ left
    have second := @normalEntries_nodup f _ right
    have perm : (normalEntries f members).Perm (normalEntries f others) := by
      have once := List.Nodup.of_map Prod.fst first
      have once_there := List.Nodup.of_map Prod.fst second
      rw [List.perm_ext_iff_of_nodup once once_there]
      intro entry
      rw [Members.mem_iff_get? first, Members.mem_iff_get? second, normalEntries_get? left,
        normalEntries_get? right, pairs]
    exact congrArg Json.object (Members.eq_of_pairwise first perm (normalEntries_pairwise members)
      (normalEntries_pairwise others))

end Respelled

theorem resemblance_respelled {f : Number → Number} (respelling : Respelling f) :
    Resemblance (Respelled f) where
  refl := fun literal => Respelled.refl literal.1
  kindred := fun same => kindred_of_normal same.same
  bool := fun same => Json.bool.inj same.same
  string := fun same => Json.string.inj same.same
  integral := by
    intro x y same
    rw [← respelling.integral x, ← respelling.integral y, Json.number.inj same.same]
  toInt := by
    intro x y same rounding
    rw [← respelling.toInt x, ← respelling.toInt y, Json.number.inj same.same]
  array := Respelled.array_iff
  empty := by
    intro m n same
    have entries := same.same
    rw [normal_object, normal_object, Json.object.injEq] at entries
    have lengths : m.length = n.length := by
      have left := (@normalEntries_perm f m).length_eq
      have right := (@normalEntries_perm f n).length_eq
      rw [List.length_map] at left right
      rw [← left, ← right, entries]
    cases m with
    | nil => rw [List.length_eq_zero_iff.mp lengths.symm]
    | cons =>
      cases n with
      | nil => cases lengths
      | cons => rfl
  get? := Respelled.get?
  erase := by
    intro m n same name
    have left := (distinct_object.mp same.left).1
    have right := (distinct_object.mp same.right).1
    apply Respelled.object (Members.nodup_erase left name) (Members.nodup_erase right name)
    intro other
    by_cases erased : name = other
    · rw [← erased, Members.get?_erase_self, Members.get?_erase_self]
      exact .none
    · rw [Members.get?_erase_ne _ erased, Members.get?_erase_ne _ erased]
      exact same.get? other
  compare := by
    intro a b c d same other
    rw [compare_eq_normal respelling, compare_eq_normal respelling, same.same, other.same]

theorem respelled_id {a b : Json} :
    Respelled id a b ↔ a.Distinct ∧ b.Distinct ∧ Reordered a b := by
  constructor
  · rintro ⟨left, right, same⟩
    rw [normal, normal, respell_id, respell_id] at same
    exact ⟨left, right, same⟩
  · rintro ⟨left, right, same⟩
    refine ⟨left, right, ?_⟩
    rw [normal, normal, respell_id, respell_id]
    exact same

end Json

end SchemaPack
