import Mathlib.Data.Set.Card
import SchemaPack.Proofs.Json.Entries
import SchemaPack.Proofs.Json.Sameness
import SchemaPack.Schema.Node

namespace SchemaPack

/-- What a schema makes of a value: whether it accepts it, and which members and items of the value
    it has evaluated. -/
@[ext] structure Evaluation where
  valid : Prop
  properties : Set String
  items : Set Nat

namespace Evaluation

def assertion (valid : Prop) : Evaluation := ⟨valid, ∅, ∅⟩

def under (condition : Prop) (outcome : Evaluation) : Evaluation where
  valid := condition → outcome.valid
  properties := {name | condition ∧ name ∈ outcome.properties}
  items := {index | condition ∧ index ∈ outcome.items}

end Evaluation

/-- What keywords see of those beside them. -/
structure Siblings where
  test : Option Json
  contained : Option Json
  leastMatches : Option Number
  named : List String
  patterns : List String
  prefixed : Nat

namespace Json

def namesAt (node : Json) (keyword : String) : List String :=
  ((node.objectAt? keyword).getD []).map (·.1)

def siblings (node : Json) : Siblings where
  test := node.get? "if"
  contained := node.get? "contains"
  leastMatches := node.numberAt? "minContains"
  named := node.namesAt "properties"
  patterns := node.namesAt "patternProperties"
  prefixed := ((node.arrayAt? "prefixItems").getD []).length

def elements (value : Json) : List Json := value.items?.getD []

theorem viewItems_length (measure : Number → Int) (items : List Json) :
    (viewItems measure (sortItems items)).length = items.length := by
  induction items with
  | nil => rfl
  | cons item rest ih => simp [sortItems, viewItems, ih]

theorem SameBy.elements_length {measure : Number → Int} {a b : Json} (same : a.SameBy measure b) :
    a.elements.length = b.elements.length := by
  let size : Likeness → Nat
    | .array items => items.length
    | _ => 0
  have sizes : ∀ value : Json, size (value.sortMembers.view measure) = value.elements.length := by
    intro value
    cases value with
    | array items => exact viewItems_length measure items
    | null | bool | number | string | object => rfl
  rw [← sizes a, ← sizes b, same]

end Json

/-- A meaning of what schemas refer to: of subschemas, of regular expressions and of the keywords
    that look at nothing beside them and evaluate in place or not at all. -/
structure Meaning where
  subschema : Json → Json → Evaluation
  fits : String → String → Prop
  keyword : String → Json → Json → Evaluation

namespace Meaning

variable (meaning : Meaning) (siblings : Siblings) (content value : Json)

def accepted : Set Nat :=
  {index | ∃ item, value.elements[index]? = some item ∧ (meaning.subschema content item).valid}

def Additional (name : String) : Prop :=
  name ∉ siblings.named ∧ ∀ pattern ∈ siblings.patterns, ¬meaning.fits pattern name

def Bounded (relation : Int → Int → Prop) (count : Nat) : Prop :=
  ∀ items bound, value = .array items → content = .number bound →
    relation (count * Binary64.one) bound.exact

/-- The outcome of a keyword from its content and what is beside it. Annotations of subschemas count
    where they accept, bounds are read as numbers, and malformed content asks for nothing. -/
def outcome (name : String) : Evaluation :=
  match name with
  | "if" => (meaning.subschema content value).under (meaning.subschema content value).valid
  | "then" => (meaning.subschema content value).under
      (∃ test, siblings.test = some test ∧ (meaning.subschema test value).valid)
  | "else" => (meaning.subschema content value).under
      (∃ test, siblings.test = some test ∧ ¬(meaning.subschema test value).valid)
  | "contains" => {
      valid := ∀ items, value = .array items →
        (meaning.accepted content value).Nonempty ∨ siblings.leastMatches.any (·.isZero) = true
      properties := ∅
      items := meaning.accepted content value }
  | "maxContains" => .assertion (∀ test, siblings.contained = some test →
      Bounded content value (· ≤ ·) (meaning.accepted test value).ncard)
  | "minContains" => .assertion (∀ test, siblings.contained = some test →
      Bounded content value (· ≥ ·) (meaning.accepted test value).ncard)
  | "maxItems" => .assertion (Bounded content value (· ≤ ·) value.elements.length)
  | "uniqueItems" => .assertion (content = .bool true →
      value.elements.Pairwise fun item other => ¬item.SameBy Number.exact other)
  | "const" => .assertion (value.SameBy Number.exact content)
  | "enum" => .assertion (∀ choices, content = .array choices →
      ∃ choice ∈ choices, value.SameBy Number.exact choice)
  | "dependentRequired" => .assertion (∀ entry ∈ content.entries,
      value.contains entry.1 = true → ∀ needed ∈ entry.2.elements, ∀ name,
        needed = .string name → value.contains name = true)
  | "properties" => {
      valid := ∀ entry ∈ content.entries, ∀ member ∈ value.entries, member.1 = entry.1 →
        (meaning.subschema entry.2 member.2).valid
      properties := {name | content.contains name = true ∧ value.contains name = true}
      items := ∅ }
  | "patternProperties" => {
      valid := ∀ entry ∈ content.entries, ∀ member ∈ value.entries,
        meaning.fits entry.1 member.1 → (meaning.subschema entry.2 member.2).valid
      properties := {name | value.contains name = true ∧
        ∃ entry ∈ content.entries, meaning.fits entry.1 name}
      items := ∅ }
  | "additionalProperties" => {
      valid := ∀ member ∈ value.entries, meaning.Additional siblings member.1 →
        (meaning.subschema content member.2).valid
      properties := {name | value.contains name = true ∧ meaning.Additional siblings name}
      items := ∅ }
  | "prefixItems" => {
      valid := ∀ (index : Nat) schema item, content.elements[index]? = some schema →
        value.elements[index]? = some item → (meaning.subschema schema item).valid
      properties := ∅
      items := {index | index < content.elements.length ∧ index < value.elements.length} }
  | "items" => {
      valid := ∀ (index : Nat) item, siblings.prefixed ≤ index →
        value.elements[index]? = some item → (meaning.subschema content item).valid
      properties := ∅
      items := {index | siblings.prefixed ≤ index ∧ index < value.elements.length} }
  | name => meaning.keyword name content value

end Meaning

def Keyword.unevaluated : List String := ["unevaluatedProperties", "unevaluatedItems"]

namespace Meaning

variable (meaning : Meaning) (node value : Json)

/-- What the keywords of a node evaluate, those aside that apply to the rest. -/
def evaluated : Evaluation where
  valid := ∀ name content, node.get? name = some content → name ∉ Keyword.unevaluated →
    (meaning.outcome node.siblings content value name).valid
  properties := {member | ∃ name content, node.get? name = some content ∧
    name ∉ Keyword.unevaluated ∧
      member ∈ (meaning.outcome node.siblings content value name).properties}
  items := {index | ∃ name content, node.get? name = some content ∧ name ∉ Keyword.unevaluated ∧
    index ∈ (meaning.outcome node.siblings content value name).items}

def evaluate : Evaluation where
  valid := node ≠ .bool false ∧ (meaning.evaluated node value).valid ∧
    (∀ schema, node.get? "unevaluatedProperties" = some schema → ∀ member ∈ value.entries,
      member.1 ∉ (meaning.evaluated node value).properties →
        (meaning.subschema schema member.2).valid) ∧
    ∀ schema, node.get? "unevaluatedItems" = some schema → ∀ (index : Nat) item,
      value.elements[index]? = some item → index ∉ (meaning.evaluated node value).items →
        (meaning.subschema schema item).valid
  properties := (meaning.evaluated node value).properties ∪
    {member | node.contains "unevaluatedProperties" = true ∧ value.contains member = true}
  items := (meaning.evaluated node value).items ∪
    {index | node.contains "unevaluatedItems" = true ∧ index < value.elements.length}

/-- Subschemas mean what this meaning makes of their parts. -/
def deeper : Meaning := { meaning with subschema := meaning.evaluate }

/-- A meaning that knows no schema but that which accepts nothing. -/
def shallow : Meaning where
  subschema schema _ := .assertion (schema ≠ .bool false)
  fits _ _ := False
  keyword _ _ _ := .assertion True

end Meaning

theorem Json.get?_eraseAll (node : Json) (names : List String) (name : String) :
    (node.eraseAll names).get? name = if name ∈ names then none else node.get? name := by
  split
  · rename_i erased
    exact node.get?_eraseAll_of_mem erased
  · rename_i kept
    exact node.get?_eraseAll_of_notMem kept

theorem Json.get?_eraseAll_eq_some {node content : Json} {names : List String} {name : String} :
    (node.eraseAll names).get? name = some content ↔
      node.get? name = some content ∧ name ∉ names := by
  rw [get?_eraseAll]
  split <;> simp [*]

def Siblings.keywords : List String :=
  ["if", "contains", "minContains", "properties", "patternProperties", "prefixItems"]

theorem Json.siblings_congr {node other : Json}
    (same : ∀ name ∈ Siblings.keywords, node.get? name = other.get? name) :
    node.siblings = other.siblings := by
  simp only [siblings, namesAt, numberAt?, arrayAt?, objectAt?, same "if" (by decide),
    same "contains" (by decide), same "minContains" (by decide), same "properties" (by decide),
    same "patternProperties" (by decide), same "prefixItems" (by decide)]

namespace Meaning

variable {meaning : Meaning} {siblings : Siblings} {content node value : Json} {name : String}
  {names : List String}

theorem outcome_test (test : Option Json) (apart : name ∉ ["then", "else"]) :
    meaning.outcome { siblings with test } content value name =
      meaning.outcome siblings content value name := by
  unfold outcome
  split <;> simp_all [Additional]

theorem outcome_leastMatches (leastMatches : Option Number) (apart : name ≠ "contains") :
    meaning.outcome { siblings with leastMatches } content value name =
      meaning.outcome siblings content value name := by
  unfold outcome
  split <;> simp_all [Additional]

section Erasure

variable (kept : ∀ name content, node.get? name = some content → name ∉ names →
    meaning.outcome (node.eraseAll names).siblings content value name =
      meaning.outcome node.siblings content value name)

include kept

theorem evaluated_valid_eraseAll
    (implied : (meaning.evaluated (node.eraseAll names) value).valid → ∀ name ∈ names,
      ∀ content, node.get? name = some content →
        (meaning.outcome node.siblings content value name).valid) :
    (meaning.evaluated (node.eraseAll names) value).valid ↔
      (meaning.evaluated node value).valid := by
  constructor
  · intro valid name content found plain
    by_cases erased : name ∈ names
    · exact implied valid name erased content found
    · rw [← kept name content found erased]
      exact valid name content (Json.get?_eraseAll_eq_some.mpr ⟨found, erased⟩) plain
  · intro valid name content left plain
    obtain ⟨found, remains⟩ := Json.get?_eraseAll_eq_some.mp left
    rw [kept name content found remains]
    exact valid name content found plain

theorem exists_eraseAll (shows : Evaluation → Prop) (blank : ∀ valid, ¬shows (.assertion valid))
    (silent : ∀ name ∈ names, ∀ content, node.get? name = some content →
      ∃ valid, meaning.outcome node.siblings content value name = .assertion valid) :
    (∃ name content, (node.eraseAll names).get? name = some content ∧
        name ∉ Keyword.unevaluated ∧
          shows (meaning.outcome (node.eraseAll names).siblings content value name)) ↔
      ∃ name content, node.get? name = some content ∧ name ∉ Keyword.unevaluated ∧
        shows (meaning.outcome node.siblings content value name) := by
  constructor
  · rintro ⟨name, content, left, plain, seen⟩
    obtain ⟨found, remains⟩ := Json.get?_eraseAll_eq_some.mp left
    rw [kept name content found remains] at seen
    exact ⟨name, content, found, plain, seen⟩
  · rintro ⟨name, content, found, plain, seen⟩
    have remains : name ∉ names := by
      intro erased
      obtain ⟨valid, same⟩ := silent name erased content found
      rw [same] at seen
      exact blank valid seen
    rw [← kept name content found remains] at seen
    exact ⟨name, content, Json.get?_eraseAll_eq_some.mpr ⟨found, remains⟩, plain, seen⟩

theorem evaluated_eraseAll
    (implied : (meaning.evaluated (node.eraseAll names) value).valid → ∀ name ∈ names,
      ∀ content, node.get? name = some content →
        (meaning.outcome node.siblings content value name).valid)
    (silent : ∀ name ∈ names, ∀ content, node.get? name = some content →
      ∃ valid, meaning.outcome node.siblings content value name = .assertion valid) :
    meaning.evaluated (node.eraseAll names) value = meaning.evaluated node value := by
  ext place
  · exact evaluated_valid_eraseAll kept implied
  · exact exists_eraseAll kept (place ∈ ·.properties) (fun _ => Set.notMem_empty place) silent
  · exact exists_eraseAll kept (place ∈ ·.items) (fun _ => Set.notMem_empty place) silent

end Erasure

theorem ne_bool_of_isObject (object : node.isObject = true) : node ≠ .bool false := by
  rintro rfl
  cases object

/-- What a node makes of a value is what its keywords evaluate and what it says of the rest. -/
theorem evaluate_eraseAll (object : node.isObject = true)
    (apart : ∀ keyword ∈ Keyword.unevaluated, keyword ∉ names)
    (same : meaning.evaluated (node.eraseAll names) value = meaning.evaluated node value) :
    meaning.evaluate (node.eraseAll names) value = meaning.evaluate node value := by
  have erased : (node.eraseAll names).isObject = true := by rwa [Json.isObject_eraseAll]
  have admitted : (node.eraseAll names ≠ .bool false) = (node ≠ .bool false) :=
    propext (iff_of_true (ne_bool_of_isObject erased) (ne_bool_of_isObject object))
  have properties := node.get?_eraseAll_of_notMem (apart "unevaluatedProperties" (by decide))
  have items := node.get?_eraseAll_of_notMem (apart "unevaluatedItems" (by decide))
  simp only [evaluate, same, admitted, Json.contains_eq, properties, items]

theorem evaluate_valid_iff (object : node.isObject = true)
    (plain : node.containsAny Keyword.unevaluated = false) :
    (meaning.evaluate node value).valid ↔ (meaning.evaluated node value).valid := by
  have none : ∀ keyword ∈ Keyword.unevaluated, node.get? keyword = none := by
    intro keyword listed
    have absent := List.any_eq_false.mp plain keyword listed
    simpa [Json.contains_eq] using absent
  have properties := none "unevaluatedProperties" (by decide)
  have items := none "unevaluatedItems" (by decide)
  simp [evaluate, ne_bool_of_isObject object, properties, items]

end Meaning

end SchemaPack
