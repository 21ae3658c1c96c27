import SchemaPack.Proofs.Json.Entries
import SchemaPack.Proofs.Json.Precise

namespace SchemaPack.Json

mutual

/-- A property of a value and of all values inside it. -/
def Throughout (P : Json → Prop) : Json → Prop
  | .null => P .null
  | .bool value => P (.bool value)
  | .number value => P (.number value)
  | .string value => P (.string value)
  | .array items => P (.array items) ∧ ThroughoutItems P items
  | .object members => P (.object members) ∧ ThroughoutMembers P members

def ThroughoutItems (P : Json → Prop) : List Json → Prop
  | [] => True
  | item :: rest => Throughout P item ∧ ThroughoutItems P rest

def ThroughoutMembers (P : Json → Prop) : List (String × Json) → Prop
  | [] => True
  | (_, value) :: rest => Throughout P value ∧ ThroughoutMembers P rest

end

section Structure

variable {P : Json → Prop} {a node value : Json} {items : List Json} {members : Members}

theorem throughoutItems_iff : ThroughoutItems P items ↔ ∀ item ∈ items, item.Throughout P := by
  induction items with
  | nil => exact iff_of_true trivial nofun
  | cons item rest ih => rw [ThroughoutItems, ih, List.forall_mem_cons]

theorem throughoutMembers_iff :
    ThroughoutMembers P members ↔ ∀ entry ∈ members, entry.2.Throughout P := by
  induction members with
  | nil => exact iff_of_true trivial nofun
  | cons entry rest ih => rw [ThroughoutMembers, ih, List.forall_mem_cons]

theorem throughout_array :
    (array items).Throughout P ↔ P (.array items) ∧ ∀ item ∈ items, item.Throughout P := by
  rw [Throughout, throughoutItems_iff]

theorem throughout_object :
    (object members).Throughout P ↔
      P (.object members) ∧ ∀ entry ∈ members, entry.2.Throughout P := by
  rw [Throughout, throughoutMembers_iff]

theorem Throughout.self (holds : a.Throughout P) : P a := by
  cases a with
  | null | bool | number | string => exact holds
  | array | object => exact holds.1

theorem Throughout.entries (holds : node.Throughout P) :
    ∀ entry ∈ node.entries, entry.2.Throughout P := by
  cases node with
  | object members => exact (throughout_object.mp holds).2
  | null | bool | number | string | array => exact nofun

theorem Throughout.of_get? {name : String} (holds : node.Throughout P)
    (found : node.get? name = some value) : value.Throughout P :=
  holds.entries _ (mem_entries_of_get? found)

theorem Throughout.of_items? (holds : a.Throughout P) (found : a.items? = some items) :
    ∀ item ∈ items, item.Throughout P := by
  cases a with
  | array => exact (throughout_array.mp (Option.some.inj found ▸ holds)).2
  | null | bool | number | string | object => cases found

theorem Throughout.of_members? (holds : a.Throughout P) (found : a.members? = some members) :
    ∀ entry ∈ members, entry.2.Throughout P := by
  cases a with
  | object => exact (throughout_object.mp (Option.some.inj found ▸ holds)).2
  | null | bool | number | string | array => cases found

theorem Throughout.of_arrayAt? {name : String} (holds : node.Throughout P)
    (found : node.arrayAt? name = some items) : ∀ item ∈ items, item.Throughout P :=
  (holds.of_get? (get?_of_arrayAt? found)).of_items? rfl

end Structure

/-- A property of doubles and of what divides: objects have it or not by their `multipleOf`, and all
    that is no double and no object has it. -/
structure Lasting (P : Json → Prop) : Prop where
  leaf : ∀ a : Json, a.isObject = false → (∀ x, a ≠ .number (.real x)) → P a
  object : ∀ members : Members,
    (∀ x, members.get? "multipleOf" = some (.number x) → x = .integer 1 ∨
      ∃ node : Json, node.get? "multipleOf" = some (.number x) ∧ P node) → P (.object members)

namespace Lasting

variable {P : Json → Prop} (lasting : Lasting P) {node value : Json}

include lasting

theorem array {items : List Json} (each : ∀ item ∈ items, item.Throughout P) :
    (Json.array items).Throughout P :=
  throughout_array.mpr ⟨lasting.leaf _ rfl nofun, each⟩

theorem null : Json.null.Throughout P := lasting.leaf _ rfl nofun

theorem bool (truth : Bool) : (Json.bool truth).Throughout P := lasting.leaf _ rfl nofun

theorem string (text : String) : (Json.string text).Throughout P := lasting.leaf _ rfl nofun

theorem integer (n : Int) (fits : Representable n) :
    (Json.number (.integer n fits)).Throughout P := lasting.leaf _ rfl nofun

theorem members {members : Members} (each : ∀ entry ∈ members, entry.2.Throughout P)
    (divides : ∀ x, members.get? "multipleOf" = some (.number x) → x = .integer 1 ∨
      ∃ node : Json, node.get? "multipleOf" = some (.number x) ∧ P node) :
    (Json.object members).Throughout P :=
  throughout_object.mpr ⟨lasting.object members divides, each⟩

theorem emptyObject : Json.emptyObject.Throughout P := by
  refine lasting.members (List.forall_mem_nil _) fun x found => ?_
  cases found

theorem erase (holds : node.Throughout P) (name : String) : (node.erase name).Throughout P := by
  cases node with
  | object members =>
    refine lasting.members ?_ fun x found => .inr ⟨.object members, ?_, holds.self⟩
    · exact fun entry listed => holds.entries entry (mem_entries_erase.mp listed).1
    · by_cases same : name = "multipleOf"
      · rw [same, Members.get?_erase_self] at found
        cases found
      · rwa [Members.get?_erase_ne members same] at found
  | null | bool | number | string | array => exact holds

theorem eraseAll (holds : node.Throughout P) (names : List String) :
    (node.eraseAll names).Throughout P := by
  unfold Json.eraseAll
  induction names generalizing node with
  | nil => exact holds
  | cons name rest ih => exact ih (lasting.erase holds name)

theorem insert {name : String} (holds : node.Throughout P) (inside : value.Throughout P)
    (divides : name ≠ "multipleOf" ∨ value = .number (.integer 1)) :
    (node.insert name value).Throughout P := by
  cases node with
  | object members =>
    refine lasting.members ?_ ?_
    · intro entry listed
      rcases Members.mem_insert listed with old | rfl
      · exact holds.entries entry old
      · exact inside
    · intro x found
      rcases divides with apart | one
      · rw [Members.get?_insert_ne members value apart] at found
        exact .inr ⟨.object members, found, holds.self⟩
      · by_cases same : name = "multipleOf"
        · rw [same, Members.get?_insert_self] at found
          cases one
          exact .inl (Json.number.inj (Option.some.inj found)).symm
        · rw [Members.get?_insert_ne members value same] at found
          exact .inr ⟨.object members, found, holds.self⟩
  | null | bool | number | string | array => exact holds

end Lasting

/-- No double, or a precise one. -/
def Sharp : Json → Prop
  | .number x => x.Precise
  | _ => True

theorem lasting_sharp : Lasting Sharp where
  leaf a _ integral := by
    cases a with
    | number x =>
      cases x with
      | integer => trivial
      | real f => exact absurd rfl (integral f)
    | null | bool | string | array | object => trivial
  object _ _ := trivial

mutual

theorem precise_iff (a : Json) : a.Precise ↔ a.Throughout Sharp := by
  cases a with
  | null | bool | string => exact iff_of_true (List.forall_mem_nil _) trivial
  | number x => exact List.forall_mem_singleton
  | array items =>
    rw [precise_array, preciseItems_iff items]
    exact (and_iff_right trivial).symm
  | object members =>
    rw [precise_object, preciseMembers_iff members]
    exact (and_iff_right trivial).symm

theorem preciseItems_iff (items : List Json) :
    (∀ item ∈ items, item.Precise) ↔ ThroughoutItems Sharp items := by
  match items with
  | [] => exact iff_of_true nofun trivial
  | item :: rest =>
    rw [List.forall_mem_cons, ThroughoutItems, precise_iff item, preciseItems_iff rest]

theorem preciseMembers_iff (members : List (String × Json)) :
    (∀ entry ∈ members, entry.2.Precise) ↔ ThroughoutMembers Sharp members := by
  match members with
  | [] => exact iff_of_true nofun trivial
  | (name, value) :: rest =>
    rw [List.forall_mem_cons, ThroughoutMembers, precise_iff value, preciseMembers_iff rest]

end

/-- Not a schema with a `multipleOf` of `-1`, which divides the least word with an overflow. -/
def Dividing (a : Json) : Prop :=
  ∀ x, a.get? "multipleOf" = some (.number x) → x.exact ≠ -Binary64.one

theorem lasting_dividing : Lasting Dividing where
  leaf a other _ x found := by
    rw [isObject_of_get? found] at other
    cases other
  object members divides x found := by
    rcases divides x found with rfl | ⟨node, had, apart⟩
    · decide
    · exact apart x had

end SchemaPack.Json
