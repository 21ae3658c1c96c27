import Mathlib.Data.List.Nodup
import Mathlib.Logic.Relation
import SchemaPack.Canonical.Collapse
import SchemaPack.Proofs.Json.Entries

namespace SchemaPack

namespace Json

/-- A value has all properties that are listed. Entries that are no strings name none. -/
def HasAll (value : Json) (names : List Json) : Prop :=
  ∀ name, .string name ∈ names → value.contains name = true

/-- A value has whatever its properties require. Only arrays require anything. -/
def HasDependencies (value : Json) (dependent : Members) : Prop :=
  ∀ name items, dependent.get? name = some (.array items) → value.contains name = true →
    value.HasAll items

/-- A value satisfies both `required` and `dependentRequired`, which are about objects only. -/
def MeetsRequirements (value node : Json) : Prop :=
  value.isObject = true →
    (∀ required, node.arrayAt? "required" = some required → value.HasAll required) ∧
      ∀ dependent, node.objectAt? "dependentRequired" = some dependent →
        value.HasDependencies dependent

end Json

namespace Collapse

/-- The properties that are required, themselves or by others that are. -/
inductive Demanded (required : List Json) (dependent : Members) : String → Prop
  | listed {name : String} : .string name ∈ required → Demanded required dependent name
  | depends {name other : String} {items : List Json} : Demanded required dependent name →
    dependent.get? name = some (.array items) → .string other ∈ items →
      Demanded required dependent other

theorem Demanded.contains {required : List Json} {dependent : Members} {value : Json}
    (all : value.HasAll required) (dependencies : value.HasDependencies dependent) {name : String}
    (demanded : Demanded required dependent name) : value.contains name = true := by
  induction demanded with
  | listed listed => exact all _ listed
  | depends _ found listed ih => exact dependencies _ _ found ih _ listed

/-- The keys of `dependent` which these entries use up. -/
def used (dependent : Members) (entries : List Json) : List String :=
  entries.filterMap fun entry => (dependencies? dependent entry).map (·.1)

section Dependencies

variable {dependent : Members} {entry : Json} {name : String} {items : List Json}

theorem dependencies?_eq_some : dependencies? dependent entry = some (name, items) ↔
    entry = .string name ∧ dependent.get? name = some (.array items) := by
  cases entry with
  | string key =>
    simp only [dependencies?, Option.map_eq_some_iff, Option.bind_eq_some_iff, Prod.mk.injEq,
      Json.string.injEq]
    constructor
    · rintro ⟨_, ⟨value, found, array⟩, rfl, rfl⟩
      cases value <;> cases array
      exact ⟨rfl, found⟩
    · rintro ⟨rfl, found⟩
      exact ⟨items, ⟨_, found, rfl⟩, rfl, rfl⟩
  | null | bool | number | array | object => simp [dependencies?]

theorem dependencies?_others {keys : List String} :
    dependencies? (dependent.others keys) entry = some (name, items) ↔
      dependencies? dependent entry = some (name, items) ∧ name ∉ keys := by
  rw [dependencies?_eq_some, dependencies?_eq_some, and_assoc, and_congr_right_iff]
  rintro rfl
  by_cases dropped : name ∈ keys
  · rw [Members.get?_others_of_mem _ dropped]
    simp [dropped]
  · rw [Members.get?_others _ dropped]
    simp [dropped]

theorem mem_used {entries : List Json} :
    name ∈ used dependent entries ↔
      .string name ∈ entries ∧ ∃ items, dependent.get? name = some (.array items) := by
  simp only [used, List.mem_filterMap, Option.map_eq_some_iff, Prod.exists, exists_and_right,
    exists_eq_right, dependencies?_eq_some]
  constructor
  · rintro ⟨_, listed, items, rfl, found⟩
    exact ⟨listed, items, found⟩
  · rintro ⟨listed, items, found⟩
    exact ⟨_, listed, items, rfl, found⟩

theorem mem_missing {known : List Json} :
    entry ∈ missing known items ↔
      entry ∈ items ∧ (∃ name, entry = .string name) ∧ entry ∉ known := by
  fun_induction missing known items with
  | case1 => simp
  | case2 known name rest listed ih =>
    rw [ih, List.mem_cons]
    refine ⟨fun ⟨inside, fresh⟩ => ⟨.inr inside, fresh⟩, ?_⟩
    rintro ⟨rfl | inside, fresh⟩
    · exact absurd listed fresh.2
    · exact ⟨inside, fresh⟩
  | case3 known name rest fresh ih =>
    rw [List.mem_cons, ih, List.mem_cons, List.mem_append, List.mem_singleton]
    by_cases here : entry = .string name
    · subst here
      simp [fresh]
    · simp [here]
  | case4 known first rest other ih =>
    rw [ih, List.mem_cons]
    refine ⟨fun ⟨inside, fresh⟩ => ⟨.inr inside, fresh⟩, ?_⟩
    rintro ⟨rfl | inside, fresh⟩
    · obtain ⟨name, rfl⟩ := fresh.1
      exact absurd rfl (other name)
    · exact ⟨inside, fresh⟩

theorem missing_nodup (known items : List Json) : (missing known items).Nodup := by
  fun_induction missing known items with
  | case1 => exact .nil
  | case2 known name rest listed ih => exact ih
  | case3 known name rest fresh ih =>
    refine List.nodup_cons.mpr ⟨fun inside => ?_, ih⟩
    exact (mem_missing.mp inside).2.2 (by simp)
  | case4 known first rest other ih => exact ih

end Dependencies

/-- How far `required` has been closed: what it lists by now, what is still dependent, and how many
    of the entries have been looked at. -/
structure Closing where
  required : List Json
  dependent : Members
  index : Nat

namespace Closing

def next? (state : Closing) : Option Closing :=
  state.required[state.index]?.map fun entry =>
    match dependencies? state.dependent entry with
    | some (name, items) =>
      { required := state.required ++ missing state.required items
        dependent := Members.erase state.dependent name
        index := state.index + 1 }
    | none => { state with index := state.index + 1 }

def Next (state later : Closing) : Prop := state.next? = some later

theorem Next.cases {state later : Closing} (next : state.Next later) :
    ∃ entry, state.required[state.index]? = some entry ∧
      ((∃ name items, dependencies? state.dependent entry = some (name, items) ∧
          later = ⟨state.required ++ missing state.required items,
            Members.erase state.dependent name, state.index + 1⟩) ∨
        dependencies? state.dependent entry = none ∧
          later = { state with index := state.index + 1 }) := by
  obtain ⟨entry, found, reached⟩ := Option.map_eq_some_iff.mp next
  refine ⟨entry, found, ?_⟩
  split at reached
  · rename_i name items depends
    exact .inl ⟨name, items, depends, reached.symm⟩
  · rename_i none
    exact .inr ⟨none, reached.symm⟩

/-- After finitely many entries there is no further one to look at. -/
def EndsIn (state last : Closing) : Prop :=
  Relation.ReflTransGen Next state last ∧ last.next? = none

/-- Closing the requirements comes to an end, even where properties require each other. -/
theorem closeRequired_endsIn {required done pending : List Json} (dependent : Members)
    (whole : required = done ++ pending) :
    EndsIn ⟨required, dependent, done.length⟩
      ⟨(closeRequired required dependent pending).1, (closeRequired required dependent pending).2,
        (closeRequired required dependent pending).1.length⟩ := by
  refine ⟨?_, by simp [next?]⟩
  fun_induction closeRequired required dependent pending generalizing done with
  | case1 required dependent =>
    rw [whole, List.append_nil]
  | case2 required dependent entry pending name items found added =>
    rename_i ih
    have here : required[done.length]? = some entry := by simp [whole]
    have next : Next ⟨required, dependent, done.length⟩
        ⟨required ++ added, Members.erase dependent name, done.length + 1⟩ := by
      simp [Next, next?, here, found, added]
    have rest := @ih (done ++ [entry]) (by simp [whole])
    rw [List.length_append] at rest
    exact .head next rest
  | case3 required dependent entry pending unused ih =>
    have here : required[done.length]? = some entry := by simp [whole]
    have next : Next ⟨required, dependent, done.length⟩ ⟨required, dependent, done.length + 1⟩ := by
      simp [Next, next?, here, unused]
    have rest := @ih (done ++ [entry]) (by simp [whole])
    rw [List.length_append] at rest
    exact .head next rest

end Closing

/-- What holds of all states that closing the requirements passes through. -/
structure Closes (required : List Json) (dependent : Members) (state : Closing) : Prop where
  grown : ∃ added, state.required = required ++ added ∧
    ∀ entry ∈ added, (∃ name, entry = .string name) ∧ state.required.count entry = 1
  rest : state.dependent = dependent.others (used dependent (state.required.take state.index))
  demanded : ∀ name, .string name ∈ state.required → Demanded required dependent name
  covered : ∀ name items other, .string name ∈ state.required.take state.index →
    dependent.get? name = some (.array items) → .string other ∈ items →
      .string other ∈ state.required

namespace Closes

variable {required : List Json} {dependent : Members} {state later : Closing}

theorem init : Closes required dependent ⟨required, dependent, 0⟩ where
  grown := ⟨[], by simp⟩
  rest := by rw [List.take_zero, used, List.filterMap_nil, Members.others_nil]
  demanded _ := .listed
  covered := by simp

theorem dependencies?_iff (closes : Closes required dependent state) {entry : Json} {name : String}
    {items : List Json} :
    dependencies? state.dependent entry = some (name, items) ↔
      dependencies? dependent entry = some (name, items) ∧
        name ∉ used dependent (state.required.take state.index) := by
  rw [closes.rest, dependencies?_others]

theorem look (closes : Closes required dependent state) {entry : Json}
    (here : state.required[state.index]? = some entry) {more : List Json} {left : Members}
    (fresh : ∀ added ∈ more, (∃ name, added = .string name) ∧ added ∉ state.required)
    (distinct : more.Nodup)
    (demanded : ∀ name, .string name ∈ more → Demanded required dependent name)
    (rest : left = dependent.others (used dependent (state.required.take state.index ++ [entry])))
    (covered : ∀ name items other, entry = .string name →
      dependent.get? name = some (.array items) → .string other ∈ items →
        .string other ∈ state.required ++ more) :
    Closes required dependent ⟨state.required ++ more, left, state.index + 1⟩ := by
  have inside : state.index < state.required.length := (List.getElem?_eq_some_iff.mp here).1
  have looked : (state.required ++ more).take (state.index + 1) =
      state.required.take state.index ++ [entry] := by
    rw [List.take_append_of_le_length inside, List.take_add_one, here]
    rfl
  refine ⟨?_, ?_, ?_, ?_⟩
  · obtain ⟨added, whole, once⟩ := closes.grown
    refine ⟨added ++ more, ?_, ?_⟩
    · show state.required ++ more = _
      rw [whole, List.append_assoc]
    · intro entry member
      show _ ∧ (state.required ++ more).count entry = 1
      rw [List.count_append]
      rcases List.mem_append.mp member with old | new
      · have apart : entry ∉ more := fun new => (fresh entry new).2 (by simp [whole, old])
        exact ⟨(once entry old).1, by rw [(once entry old).2, List.count_eq_zero.mpr apart]⟩
      · refine ⟨(fresh entry new).1, ?_⟩
        rw [List.count_eq_zero.mpr (fresh entry new).2, List.count_eq_one_of_mem distinct new]
  · show left = dependent.others (used dependent ((state.required ++ more).take (state.index + 1)))
    rw [looked, rest]
  · intro name listed
    rcases List.mem_append.mp listed with old | new
    · exact closes.demanded name old
    · exact demanded name new
  · intro name items other listed found depends
    rw [looked, List.mem_append, List.mem_singleton] at listed
    rcases listed with old | now
    · exact List.mem_append_left _ (closes.covered name items other old found depends)
    · exact covered name items other now.symm found depends

theorem use (closes : Closes required dependent state) {entry : Json} {name : String}
    {items : List Json} (here : state.required[state.index]? = some entry)
    (found : dependencies? state.dependent entry = some (name, items)) :
    Closes required dependent ⟨state.required ++ missing state.required items,
      Members.erase state.dependent name, state.index + 1⟩ := by
  obtain ⟨depends, _⟩ := closes.dependencies?_iff.mp found
  obtain ⟨rfl, listed⟩ := dependencies?_eq_some.mp depends
  refine closes.look here (fun added new => (mem_missing.mp new).2) (missing_nodup _ _) ?_ ?_ ?_
  · intro other new
    have known := closes.demanded name (List.mem_of_getElem? here)
    exact .depends known listed (mem_missing.mp new).1
  · rw [closes.rest, Members.erase_eq_others, Members.others_others, used, used,
      List.filterMap_append, List.filterMap_cons, depends]
    rfl
  · rintro _ _ other ⟨⟩ same inside
    cases listed.symm.trans same
    rw [List.mem_append, mem_missing]
    by_cases known : Json.string other ∈ state.required
    · exact .inl known
    · exact .inr ⟨inside, ⟨other, rfl⟩, known⟩

theorem skip (closes : Closes required dependent state) {entry : Json}
    (here : state.required[state.index]? = some entry)
    (unused : dependencies? state.dependent entry = none) :
    Closes required dependent { state with index := state.index + 1 } := by
  have again : ∀ name, entry = .string name → ∀ items, dependent.get? name = some (.array items) →
      name ∈ used dependent (state.required.take state.index) := by
    intro name same items found
    by_contra unspent
    have depends := closes.dependencies?_iff.mpr
      ⟨dependencies?_eq_some.mpr ⟨same, found⟩, unspent⟩
    cases unused.symm.trans depends
  have same := @look required dependent state closes entry here [] state.dependent (by simp)
    .nil (by simp) ?_ ?_
  · rwa [List.append_nil] at same
  · rw [closes.rest]
    apply Members.others_congr
    intro name
    rw [mem_used, mem_used, List.mem_append, List.mem_singleton]
    refine ⟨fun ⟨listed, depends⟩ => ⟨.inl listed, depends⟩, ?_⟩
    rintro ⟨listed | rfl, items, found⟩
    · exact ⟨listed, items, found⟩
    · exact mem_used.mp (again name rfl items found)
  · intro name items other same found listed
    have before := (mem_used.mp (again name same items found)).1
    rw [List.append_nil]
    exact closes.covered name items other before found listed

theorem step (closes : Closes required dependent state) (next : state.Next later) :
    Closes required dependent later := by
  obtain ⟨entry, here, ⟨name, items, found, rfl⟩ | ⟨unused, rfl⟩⟩ := next.cases
  · exact closes.use here found
  · exact closes.skip here unused

theorem run {state : Closing} (closing : Relation.ReflTransGen Closing.Next state later)
    (closes : Closes required dependent state) : Closes required dependent later := by
  induction closing with
  | refl => exact closes
  | tail _ next ih => exact ih.step next

section Closed

variable {required closed : List Json} {dependent rest : Members}
  (closes : Closes required dependent ⟨closed, rest, closed.length⟩)

include closes

theorem rest_eq : rest = dependent.others (used dependent closed) := by
  have looked := closes.rest
  rwa [List.take_length] at looked

theorem dependencies?_eq_none {entry : Json} (listed : entry ∈ closed) :
    dependencies? rest entry = none := by
  rw [closes.rest_eq, Option.eq_none_iff_forall_ne_some]
  rintro ⟨name, items⟩ depends
  obtain ⟨depends, unspent⟩ := dependencies?_others.mp depends
  obtain ⟨rfl, found⟩ := dependencies?_eq_some.mp depends
  exact unspent (mem_used.mpr ⟨listed, items, found⟩)

theorem get?_of_get?_rest {name : String} {value : Json} (found : rest.get? name = some value) :
    dependent.get? name = some value := by
  rw [closes.rest_eq] at found
  by_cases dropped : name ∈ used dependent closed
  · rw [Members.get?_others_of_mem _ dropped] at found
    cases found
  · rwa [Members.get?_others _ dropped] at found

theorem required_subset : required ⊆ closed := by
  obtain ⟨added, rfl, _⟩ := closes.grown
  exact List.subset_append_left _ _

/-- Exactly what is demanded is listed. -/
theorem mem_iff_demanded (name : String) :
    .string name ∈ closed ↔ Demanded required dependent name := by
  refine ⟨closes.demanded name, fun demanded => ?_⟩
  induction demanded with
  | listed listed => exact closes.required_subset listed
  | depends _ found listed ih =>
    exact closes.covered _ _ _ (by rwa [List.take_length]) found listed

theorem meets_iff (value : Json) :
    value.HasAll closed ∧ value.HasDependencies rest ↔
      value.HasAll required ∧ value.HasDependencies dependent := by
  constructor
  · rintro ⟨all, dependencies⟩
    refine ⟨fun name listed => all name (closes.required_subset listed), ?_⟩
    intro name items found present
    by_cases dropped : name ∈ used dependent closed
    · intro other listed
      have inside : Json.string name ∈ closed := (mem_used.mp dropped).1
      exact all other (closes.covered name items other (by rwa [List.take_length]) found listed)
    · refine dependencies name items ?_ present
      rw [closes.rest_eq, Members.get?_others _ dropped, found]
  · rintro ⟨all, dependencies⟩
    refine ⟨fun name listed => ?_, fun name items found => ?_⟩
    · exact ((closes.mem_iff_demanded name).mp listed).contains all dependencies
    · exact dependencies name items (closes.get?_of_get?_rest found)

end Closed

end Closes

section Rule

variable {node : Json} {required : List Json} {dependent : Members}

theorem closes_closeRequired (required : List Json) (dependent : Members) :
    let closed := closeRequired required dependent required
    Closes required dependent ⟨closed.1, closed.2, closed.1.length⟩ :=
  Closes.init.run (Closing.closeRequired_endsIn dependent required.nil_append.symm).1

variable (first : node.arrayAt? "required" = some required)
  (second : node.objectAt? "dependentRequired" = some dependent)

include first second

theorem requiredDependencies_transform :
    requiredDependencies.transform node =
      (node.insert "dependentRequired"
        (.object (closeRequired required dependent required).2)).insert "required"
          (.array (closeRequired required dependent required).1) := by
  simp only [requiredDependencies, first, second]

theorem requiredDependencies_required :
    (requiredDependencies.transform node).arrayAt? "required" =
      some (closeRequired required dependent required).1 := by
  rw [requiredDependencies_transform first second]
  apply Json.arrayAt?_of_get?
  apply Json.get?_insert_self
  rw [Json.isObject_insert, Json.isObject_of_get? (Json.get?_of_arrayAt? first)]

theorem requiredDependencies_dependent :
    (requiredDependencies.transform node).objectAt? "dependentRequired" =
      some (closeRequired required dependent required).2 := by
  rw [requiredDependencies_transform first second]
  apply Json.objectAt?_of_get?
  rw [Json.get?_insert_ne _ _ (by decide)]
  exact Json.get?_insert_self _ _ _ (Json.isObject_of_get? (Json.get?_of_arrayAt? first))

theorem requiredDependencies_others :
    (requiredDependencies.transform node).others ["required", "dependentRequired"] =
      node.others ["required", "dependentRequired"] := by
  rw [requiredDependencies_transform first second, Json.others_insert _ _ (by decide),
    Json.others_insert _ _ (by decide)]

theorem meetsRequirements_iff {value : Json} :
    value.MeetsRequirements node ↔
      (value.isObject = true → value.HasAll required ∧ value.HasDependencies dependent) := by
  simp only [Json.MeetsRequirements, first, second, Option.some.injEq, forall_eq']

end Rule

end Collapse

/-- Closing the requirements comes to an end, and it neither adds nor loses any. Whatever is
    required in the end lists no further requirements, strings are appended that were not listed,
    and of what depends on other properties just the entries that are used up are gone. -/
theorem requiredDependencies_exact (node : Json) (required : List Json) (dependent : Members)
    (first : node.arrayAt? "required" = some required)
    (second : node.objectAt? "dependentRequired" = some dependent) :
    let left := Collapse.requiredDependencies.transform node
    ∃ added rest,
      left.arrayAt? "required" = some (required ++ added) ∧
      left.objectAt? "dependentRequired" = some rest ∧
      left.others ["required", "dependentRequired"] =
        node.others ["required", "dependentRequired"] ∧
      (Collapse.Closing.mk required dependent 0).EndsIn
        ⟨required ++ added, rest, (required ++ added).length⟩ ∧
      (∀ value : Json, value.MeetsRequirements left ↔ value.MeetsRequirements node) ∧
      (∀ name, .string name ∈ required ++ added ↔
        Collapse.Demanded required dependent name) ∧
      (∀ name, .string name ∈ required ++ added → ∀ items, rest.get? name ≠ some (.array items)) ∧
      (∀ entry ∈ added, (∃ name, entry = .string name) ∧ (required ++ added).count entry = 1) ∧
      rest = dependent.others (Collapse.used dependent (required ++ added)) := by
  intro left
  have ends := Collapse.Closing.closeRequired_endsIn dependent required.nil_append.symm
  have closes := Collapse.closes_closeRequired required dependent
  have list := Collapse.requiredDependencies_required first second
  have entries := Collapse.requiredDependencies_dependent first second
  have others := Collapse.requiredDependencies_others first second
  generalize Collapse.closeRequired required dependent required = closed at *
  obtain ⟨_, rest⟩ := closed
  obtain ⟨added, rfl, once⟩ := closes.grown
  refine ⟨added, rest, list, entries, others, ends, fun value => ?_, closes.mem_iff_demanded,
    fun name listed items found => ?_, once, closes.rest_eq⟩
  · rw [Collapse.meetsRequirements_iff list entries, Collapse.meetsRequirements_iff first second,
      closes.meets_iff]
  · have depends := Collapse.dependencies?_eq_some.mpr ⟨rfl, found⟩
    cases (closes.dependencies?_eq_none listed).symm.trans depends

/-- Two properties that require each other, beside entries that require nothing. -/
theorem requiredDependencies_exact_cycle :
    let required : List Json := [.string "a", .null, .string "a"]
    let dependent : Members := [("a", .array [.string "b", .bool true]), ("c", .string "d"),
      ("b", .array [.string "a", .string "c", .string "c"])]
    let node := Json.object [("required", .array required), ("title", .string "t"),
      ("dependentRequired", .object dependent)]
    let left := Collapse.requiredDependencies.transform node
    node.arrayAt? "required" = some required ∧
      node.objectAt? "dependentRequired" = some dependent ∧
      left.arrayAt? "required" = some (required ++ [.string "b", .string "c"]) ∧
      left.objectAt? "dependentRequired" = some [("c", .string "d")] ∧
      ∀ value : Json, value.MeetsRequirements left ↔ value.MeetsRequirements node := by
  intro required dependent node left
  have closed : Collapse.closeRequired required dependent required =
      (required ++ [.string "b", .string "c"], [("c", .string "d")]) := by
    simp [Collapse.closeRequired, Collapse.dependencies?, Collapse.missing, Members.get?,
      Members.erase, List.lookup_cons, Json.items?, required, dependent]
  have list := @Collapse.requiredDependencies_required node required dependent rfl rfl
  have entries := @Collapse.requiredDependencies_dependent node required dependent rfl rfl
  rw [closed] at list entries
  obtain ⟨_, _, _, _, _, _, same, _⟩ := requiredDependencies_exact node required dependent rfl rfl
  exact ⟨rfl, rfl, list, entries, same⟩

end SchemaPack
