import SchemaPack.Schema.Node

namespace SchemaPack

namespace Members

@[simp] theorem get?_nil (name : String) : get? [] name = none := rfl

theorem get?_cons (entry : String × Json) (rest : Members) (name : String) :
    get? (entry :: rest) name = if entry.1 = name then some entry.2 else get? rest name := by
  obtain ⟨key, value⟩ := entry
  unfold get?
  rw [List.lookup_cons]
  by_cases same : key = name
  · rw [if_pos same, beq_iff_eq.mpr same.symm]
  · rw [if_neg same, beq_eq_false_iff_ne.mpr (Ne.symm same)]

theorem contains_eq (members : Members) (name : String) :
    members.contains name = (members.get? name).isSome := by
  induction members with
  | nil => rfl
  | cons entry rest ih =>
    rw [get?_cons]
    unfold contains at ih ⊢
    rw [List.any_cons, ih]
    by_cases same : entry.1 = name
    · rw [if_pos same, beq_iff_eq.mpr same, Bool.true_or, Option.isSome_some]
    · rw [if_neg same, beq_eq_false_iff_ne.mpr same, Bool.false_or]

theorem get?_filter (members : Members) {keep : String → Bool} {name : String}
    (kept : keep name = true) :
    get? (members.filter fun entry => keep entry.1) name = get? members name := by
  induction members with
  | nil => rfl
  | cons entry rest ih =>
    rw [List.filter_cons, get?_cons]
    by_cases same : entry.1 = name
    · rw [same, if_pos kept, if_pos rfl, get?_cons, if_pos same]
    · rw [if_neg same]
      split
      · rw [get?_cons, if_neg same, ih]
      · exact ih

theorem get?_filter_none (members : Members) {keep : String → Bool} {name : String}
    (dropped : keep name = false) :
    get? (members.filter fun entry => keep entry.1) name = none := by
  induction members with
  | nil => rfl
  | cons entry rest ih =>
    rw [List.filter_cons]
    split
    · rename_i kept
      rw [get?_cons, if_neg ?_, ih]
      intro same
      rw [same, dropped] at kept
      cases kept
    · exact ih

theorem get?_append (members others : Members) (name : String) :
    get? (members ++ others) name = (get? members name).or (get? others name) := by
  induction members with
  | nil => rfl
  | cons entry rest ih =>
    rw [List.cons_append, get?_cons, get?_cons, ih]
    split <;> rfl

theorem get?_erase_ne (members : Members) {name other : String} (ne : name ≠ other) :
    get? (erase members name) other = get? members other :=
  @get?_filter members (· != name) other (bne_iff_ne.mpr (Ne.symm ne))

theorem get?_erase_self (members : Members) (name : String) :
    get? (erase members name) name = none :=
  @get?_filter_none members (· != name) name (bne_self_eq_false name)

theorem get?_replace_ne (members : Members) {name other : String} (value : Json)
    (ne : name ≠ other) :
    get? (members.map fun entry => if entry.1 == name then (name, value) else entry) other =
      get? members other := by
  induction members with
  | nil => rfl
  | cons entry rest ih =>
    rw [List.map_cons, get?_cons, get?_cons, ih]
    by_cases here : entry.1 = name
    · rw [if_pos (beq_iff_eq.mpr here), if_neg ne, here, if_neg ne]
    · rw [if_neg (mt beq_iff_eq.mp here)]

theorem get?_replace_self (members : Members) {name : String} (value : Json)
    (present : (get? members name).isSome = true) :
    get? (members.map fun entry => if entry.1 == name then (name, value) else entry) name =
      some value := by
  induction members with
  | nil => cases present
  | cons entry rest ih =>
    rw [List.map_cons, get?_cons]
    by_cases here : entry.1 = name
    · rw [if_pos (beq_iff_eq.mpr here), if_pos rfl]
    · rw [get?_cons, if_neg here] at present
      rw [if_neg (mt beq_iff_eq.mp here), if_neg here, ih present]

theorem get?_insert_ne (members : Members) {name other : String} (value : Json)
    (ne : name ≠ other) : get? (insert members name value) other = get? members other := by
  unfold insert
  split
  · exact get?_replace_ne members value ne
  · rw [get?_append, get?_cons, if_neg ne, get?_nil, Option.or_none]

theorem get?_insert_self (members : Members) (name : String) (value : Json) :
    get? (insert members name value) name = some value := by
  unfold insert
  rw [contains_eq]
  split
  · rename_i present
    exact get?_replace_self members value present
  · rename_i absent
    rw [Bool.not_eq_true, Option.isSome_eq_false_iff, Option.isNone_iff_eq_none] at absent
    rw [get?_append, get?_cons, if_pos rfl, absent, Option.none_or]

end Members

namespace Json

theorem get?_object (members : Members) (name : String) :
    (object members).get? name = members.get? name := rfl

theorem contains_eq (node : Json) (name : String) :
    node.contains name = (node.get? name).isSome := by
  cases node with
  | object members => exact Members.contains_eq members name
  | null | bool | number | string | array => rfl

theorem eq_object_of_get? {node : Json} {name : String} (present : (node.get? name).isSome) :
    ∃ members, node = .object members := by
  cases node with
  | object members => exact ⟨members, rfl⟩
  | null | bool | number | string | array => cases present

theorem get?_erase_ne (node : Json) {name other : String} (ne : name ≠ other) :
    (node.erase name).get? other = node.get? other := by
  cases node with
  | object members => exact Members.get?_erase_ne members ne
  | null | bool | number | string | array => rfl

theorem get?_erase_self (node : Json) (name : String) : (node.erase name).get? name = none := by
  cases node with
  | object members => exact Members.get?_erase_self members name
  | null | bool | number | string | array => rfl

theorem get?_insert_ne (node : Json) {name other : String} (value : Json) (ne : name ≠ other) :
    (node.insert name value).get? other = node.get? other := by
  cases node with
  | object members => exact Members.get?_insert_ne members value ne
  | null | bool | number | string | array => rfl

theorem get?_insert_self (node : Json) (name : String) (value : Json) (object : node.isObject) :
    (node.insert name value).get? name = some value := by
  cases node with
  | object members => exact Members.get?_insert_self members name value
  | null | bool | number | string | array => cases object

theorem get?_eraseAll_of_notMem (node : Json) {names : List String} {other : String}
    (absent : other ∉ names) : (node.eraseAll names).get? other = node.get? other := by
  unfold eraseAll
  induction names generalizing node with
  | nil => rfl
  | cons name rest ih =>
    rw [List.mem_cons, not_or] at absent
    rw [List.foldl_cons, ih _ absent.2, get?_erase_ne _ (Ne.symm absent.1)]

theorem get?_eraseAll_of_mem (node : Json) {names : List String} {other : String}
    (present : other ∈ names) : (node.eraseAll names).get? other = none := by
  unfold eraseAll
  induction names generalizing node with
  | nil => cases present
  | cons name rest ih =>
    rw [List.foldl_cons]
    by_cases later : other ∈ rest
    · exact ih _ later
    · have same : other = name := by
        rcases List.mem_cons.mp present with same | inside
        · exact same
        · exact absurd inside later
      subst same
      have kept := get?_eraseAll_of_notMem (node.erase other) later
      unfold eraseAll at kept
      rw [kept, get?_erase_self]

theorem isObject_of_get? {node : Json} {name : String} {value : Json}
    (present : node.get? name = some value) : node.isObject = true := by
  obtain ⟨members, rfl⟩ := eq_object_of_get? (by rw [present]; rfl)
  rfl

@[simp] theorem isObject_erase (node : Json) (name : String) :
    (node.erase name).isObject = node.isObject := by
  cases node <;> rfl

@[simp] theorem isObject_insert (node : Json) (name : String) (value : Json) :
    (node.insert name value).isObject = node.isObject := by
  cases node <;> rfl

@[simp] theorem isObject_eraseAll (node : Json) (names : List String) :
    (node.eraseAll names).isObject = node.isObject := by
  unfold eraseAll
  induction names generalizing node with
  | nil => rfl
  | cons name rest ih => rw [List.foldl_cons, ih, isObject_erase]

theorem contains_of_get? {node : Json} {name : String} {value : Json}
    (found : node.get? name = some value) : node.contains name = true := by
  rw [contains_eq, found]
  rfl

theorem get?_of_numberAt? {node : Json} {name : String} {value : Number}
    (found : node.numberAt? name = some value) : node.get? name = some (.number value) := by
  unfold numberAt? at found
  obtain ⟨held, present, number⟩ := Option.bind_eq_some_iff.mp found
  cases held <;> cases number
  exact present

theorem numberAt?_of_get? {node : Json} {name : String} {value : Number}
    (found : node.get? name = some (.number value)) : node.numberAt? name = some value := by
  rw [numberAt?, found]
  rfl

theorem get?_of_arrayAt? {node : Json} {name : String} {items : List Json}
    (found : node.arrayAt? name = some items) : node.get? name = some (.array items) := by
  unfold arrayAt? at found
  obtain ⟨held, present, array⟩ := Option.bind_eq_some_iff.mp found
  cases held <;> cases array
  exact present

theorem arrayAt?_of_get? {node : Json} {name : String} {items : List Json}
    (found : node.get? name = some (.array items)) : node.arrayAt? name = some items := by
  rw [arrayAt?, found]
  rfl

theorem get?_of_objectAt? {node : Json} {name : String} {members : Members}
    (found : node.objectAt? name = some members) : node.get? name = some (.object members) := by
  unfold objectAt? at found
  obtain ⟨held, present, object⟩ := Option.bind_eq_some_iff.mp found
  cases held <;> cases object
  exact present

theorem objectAt?_of_get? {node : Json} {name : String} {members : Members}
    (found : node.get? name = some (.object members)) : node.objectAt? name = some members := by
  rw [objectAt?, found]
  rfl

theorem get?_of_declaredType? {node : Json} {type : InstanceType}
    (declared : node.declaredType? = some type) :
    ∃ name, node.get? "type" = some (.string name) ∧ InstanceType.ofName? name = some type := by
  unfold declaredType? at declared
  obtain ⟨name, named, known⟩ := Option.bind_eq_some_iff.mp declared
  obtain ⟨held, present, string⟩ := Option.bind_eq_some_iff.mp named
  cases held <;> cases string
  exact ⟨_, present, known⟩

theorem hasType_iff {node : Json} {type : InstanceType} :
    node.hasType type = true ↔ node.get? "type" = some (.string type.name) := by
  simp only [hasType, beq_iff_eq]
  constructor
  · intro declared
    obtain ⟨name, present, known⟩ := get?_of_declaredType? declared
    have named := List.find?_some known
    rw [present, beq_iff_eq.mp named]
  · intro present
    simp only [declaredType?, present, Option.bind_some, string?]
    cases type <;> decide

end Json

end SchemaPack
