import SchemaPack.Proofs.Json.Totals

namespace SchemaPack

namespace Members

def others (members : Members) (names : List String) : Members :=
  members.filter fun entry => !names.contains entry.1

@[simp] theorem others_nil (members : Members) : members.others [] = members :=
  List.filter_eq_self.mpr fun _ _ => rfl

theorem get?_others (members : Members) {names : List String} {name : String}
    (apart : name ∉ names) : (members.others names).get? name = members.get? name :=
  @get?_filter members (!names.contains ·) name (by simp [apart])

theorem get?_others_of_mem (members : Members) {names : List String} {name : String}
    (listed : name ∈ names) : (members.others names).get? name = none :=
  @get?_filter_none members (!names.contains ·) name (by simp [listed])

theorem others_replace (members : Members) {names : List String} {name : String} (value : Json)
    (listed : name ∈ names) :
    others (members.map fun entry => if entry.1 == name then (name, value) else entry) names =
      members.others names := by
  induction members with
  | nil => rfl
  | cons entry rest ih =>
    rw [others, others] at ih ⊢
    rw [List.map_cons, List.filter_cons, List.filter_cons, ih]
    by_cases here : entry.1 = name
    · simp [here, listed]
    · rw [if_neg (mt beq_iff_eq.mp here)]

theorem others_insert (members : Members) {names : List String} {name : String} (value : Json)
    (listed : name ∈ names) :
    (Members.insert members name value).others names = members.others names := by
  unfold insert
  split
  · exact others_replace members value listed
  · rw [others, List.filter_append, List.filter_cons_of_neg (by simp [listed]), List.filter_nil,
      List.append_nil, others]

theorem others_congr (members : Members) {names more : List String}
    (same : ∀ name, name ∈ names ↔ name ∈ more) : members.others names = members.others more := by
  apply List.filter_congr
  intro entry _
  rw [List.contains_eq_mem, List.contains_eq_mem, decide_eq_decide.mpr (same entry.1)]

theorem others_others (members : Members) (names more : List String) :
    (members.others names).others more = members.others (names ++ more) := by
  rw [others, others, others, List.filter_filter]
  apply List.filter_congr
  intro entry _
  simp [Bool.and_comm]

theorem erase_eq_others (members : Members) (name : String) :
    erase members name = members.others [name] := by
  apply List.filter_congr
  intro entry _
  simp [bne, Bool.beq_eq_decide_eq]

theorem others_erase (members : Members) {names : List String} {name : String}
    (listed : name ∈ names) : (Members.erase members name).others names = members.others names := by
  rw [erase_eq_others, others_others]
  apply others_congr
  intro other
  rw [List.mem_append, List.mem_singleton, or_iff_right_of_imp fun same => same ▸ listed]

theorem others_mono {members rest : Members} {names more : List String} (fewer : names ⊆ more)
    (same : rest.others names = members.others names) : rest.others more = members.others more := by
  have twice : ∀ members : Members, (members.others names).others more = members.others more := by
    intro members
    rw [others_others]
    apply others_congr
    intro name
    rw [List.mem_append, or_iff_right_of_imp (@fewer name)]
  rw [← twice rest, same, twice]

end Members

namespace Json

def entries (node : Json) : Members := node.members?.getD []

@[simp] theorem entries_object (members : Members) : (object members).entries = members := rfl

theorem mem_entries_of_get? {node : Json} {name : String} {value : Json}
    (found : node.get? name = some value) : (name, value) ∈ node.entries := by
  cases node with
  | object members => exact Members.mem_of_get? found
  | null | bool | number | string | array => cases found

theorem eq_object_of_entry {node : Json} {entry : String × Json} (listed : entry ∈ node.entries) :
    ∃ members, node = .object members := by
  cases node with
  | object members => exact ⟨members, rfl⟩
  | null | bool | number | string | array => cases listed

theorem get?_eq_entries (node : Json) (name : String) :
    node.get? name = node.entries.get? name := by
  cases node <;> rfl

theorem entries_erase (node : Json) (name : String) :
    (node.erase name).entries = node.entries.filter (·.1 != name) := by
  cases node <;> rfl

theorem mem_entries_erase {node : Json} {name : String} {entry : String × Json} :
    entry ∈ (node.erase name).entries ↔ entry ∈ node.entries ∧ entry.1 ≠ name := by
  rw [entries_erase, List.mem_filter, bne_iff_ne]

theorem mem_entries_insert {node : Json} {name : String} {value : Json} {entry : String × Json}
    (member : entry ∈ (node.insert name value).entries) :
    entry ∈ node.entries ∨ entry = (name, value) := by
  cases node with
  | object members => exact Members.mem_insert member
  | null | bool | number | string | array => cases member

def others (node : Json) (names : List String) : Members := node.entries.others names

theorem entries_erase_eq (node : Json) (name : String) :
    (node.erase name).entries = node.others [name] := by
  rw [entries_erase]
  exact node.entries.erase_eq_others name

theorem others_erase (node : Json) {names : List String} {name : String} (listed : name ∈ names) :
    (node.erase name).others names = node.others names := by
  cases node with
  | object members => exact Members.others_erase members listed
  | null | bool | number | string | array => rfl

theorem others_insert (node : Json) {names : List String} {name : String} (value : Json)
    (listed : name ∈ names) : (node.insert name value).others names = node.others names := by
  cases node with
  | object members => exact Members.others_insert members value listed
  | null | bool | number | string | array => rfl

theorem get?_of_others {node other : Json} {names : List String}
    (same : other.others names = node.others names) {name : String} (apart : name ∉ names) :
    other.get? name = node.get? name := by
  rw [get?_eq_entries, get?_eq_entries, ← Members.get?_others _ apart,
    ← Members.get?_others node.entries apart]
  exact congrArg (Members.get? · name) same

theorem mem_entries_eraseAll {node : Json} {names : List String} {entry : String × Json} :
    entry ∈ (node.eraseAll names).entries ↔ entry ∈ node.entries ∧ entry.1 ∉ names := by
  unfold eraseAll
  induction names generalizing node with
  | nil => simp
  | cons name rest ih =>
    rw [List.foldl_cons, ih, mem_entries_erase, and_assoc, List.mem_cons, not_or]

end Json

end SchemaPack
