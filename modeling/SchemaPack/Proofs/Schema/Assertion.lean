import SchemaPack.Proofs.Json.Members
import SchemaPack.Proofs.Json.Sameness

namespace SchemaPack

/-- The assertions of a schema that speak of a value without looking into subschemas. -/
inductive Assertion where
  | type
  | enum
  | const
  | minimum
  | maximum
  | exclusiveMinimum
  | exclusiveMaximum
  | multipleOf
  | minLength
  | maxLength
  | minItems
  | maxItems
  | minProperties
  | maxProperties
  | required
  | dependentRequired
  deriving DecidableEq, Repr

namespace Assertion

def all : List Assertion := [
  .type, .enum, .const, .minimum, .maximum, .exclusiveMinimum, .exclusiveMaximum, .multipleOf,
  .minLength, .maxLength, .minItems, .maxItems, .minProperties, .maxProperties, .required,
  .dependentRequired]

def name : Assertion → String
  | .type => "type"
  | .enum => "enum"
  | .const => "const"
  | .minimum => "minimum"
  | .maximum => "maximum"
  | .exclusiveMinimum => "exclusiveMinimum"
  | .exclusiveMaximum => "exclusiveMaximum"
  | .multipleOf => "multipleOf"
  | .minLength => "minLength"
  | .maxLength => "maxLength"
  | .minItems => "minItems"
  | .maxItems => "maxItems"
  | .minProperties => "minProperties"
  | .maxProperties => "maxProperties"
  | .required => "required"
  | .dependentRequired => "dependentRequired"

theorem mem_all (assertion : Assertion) : assertion ∈ all := by
  cases assertion <;> decide

theorem name_injective {assertion other : Assertion} (same : assertion.name = other.name) :
    assertion = other := by
  have distinct : ∀ a ∈ all, ∀ b ∈ all, a.name = b.name → a = b := by decide +kernel
  exact distinct _ assertion.mem_all _ other.mem_all same

/-- The types that `type` names: one, or several different ones. -/
def types? : Json → Option (List InstanceType)
  | .string name => (InstanceType.ofName? name).map ([·])
  | .array names =>
    (names.mapM fun name : Json => name.string?.bind InstanceType.ofName?).filter fun types =>
      !types.isEmpty && types.Nodup
  | _ => none

def names? (content : Json) : Option (List String) :=
  (content.items?.bind fun names => names.mapM Json.string?).filter fun names => names.Nodup

def dependencies? (content : Json) : Option (List (String × List String)) :=
  content.members?.bind fun members => members.mapM fun entry =>
    (names? entry.2).map fun names => (entry.1, names)

def length? : Json → Option Nat
  | .string text => some text.length
  | _ => none

def itemCount? : Json → Option Nat
  | .array items => some items.length
  | _ => none

def memberCount? : Json → Option Nat
  | .object members => some members.length
  | _ => none

/-- A relation of a number to the numbers among the values, by their exact values. -/
def OfNumbers (relation : Int → Int → Prop) (content value : Json) : Prop :=
  ∀ bound number, content = .number bound → value = .number number →
    relation bound.exact number.exact

/-- A relation of a natural number to the size of the values that have one. -/
def OfSizes (size? : Json → Option Nat) (relation : Int → Int → Prop)
    (content value : Json) : Prop :=
  ∀ bound size, content = .number bound → bound.isIntegral = true → 0 ≤ bound.exact →
    size? value = some size → relation bound.exact (size * Binary64.one)

/-- Whether a value satisfies an assertion. One whose content is malformed constrains nothing, and
    neither the sign of `multipleOf` nor the order of members matters. -/
def Holds (measure : Number → Int) (assertion : Assertion) (content value : Json) : Prop :=
  match assertion with
  | .type => ∀ types, types? content = some types → ∃ type ∈ types, value.isInstanceOf type = true
  | .enum => ∀ choices, content = .array choices → ∃ choice ∈ choices, value.SameBy measure choice
  | .const => value.SameBy measure content
  | .minimum => OfNumbers (· ≤ ·) content value
  | .maximum => OfNumbers (· ≥ ·) content value
  | .exclusiveMinimum => OfNumbers (· < ·) content value
  | .exclusiveMaximum => OfNumbers (· > ·) content value
  | .multipleOf => OfNumbers (fun step number => step ≠ 0 → step ∣ number) content value
  | .minLength => OfSizes length? (· ≤ ·) content value
  | .maxLength => OfSizes length? (· ≥ ·) content value
  | .minItems => OfSizes itemCount? (· ≤ ·) content value
  | .maxItems => OfSizes itemCount? (· ≥ ·) content value
  | .minProperties => OfSizes memberCount? (· ≤ ·) content value
  | .maxProperties => OfSizes memberCount? (· ≥ ·) content value
  | .required => ∀ names, names? content = some names → value.isObject = true →
      ∀ name ∈ names, value.contains name = true
  | .dependentRequired => ∀ dependencies, dependencies? content = some dependencies →
      ∀ dependency ∈ dependencies, value.contains dependency.1 = true →
        ∀ name ∈ dependency.2, value.contains name = true

theorem Holds.units {assertion : Assertion} {content value : Json}
    (holds : assertion.Holds Number.exact content value) :
    assertion.Holds Number.units content value := by
  cases assertion with
  | enum =>
    intro choices array
    obtain ⟨choice, listed, same⟩ := holds choices array
    exact ⟨choice, listed, same.units⟩
  | const => exact Json.SameBy.units holds
  | type | minimum | maximum | exclusiveMinimum | exclusiveMaximum | multipleOf | minLength
  | maxLength | minItems | maxItems | minProperties | maxProperties | required
  | dependentRequired => exact holds

end Assertion

namespace Json

/-- Whether a value satisfies some of the assertions at the root of a schema. -/
def Meets (measure : Number → Int) (among : List Assertion) (schema value : Json) : Prop :=
  ∀ assertion ∈ among, ∀ content, schema.get? assertion.name = some content →
    assertion.Holds measure content value

namespace Meets

variable {measure : Number → Int} {among : List Assertion} {schema other value : Json}

theorem mono {fewer : List Assertion} (meets : schema.Meets measure among value)
    (fewer_subset : fewer ⊆ among) : schema.Meets measure fewer value :=
  fun assertion listed => meets assertion (fewer_subset listed)

theorem units (meets : schema.Meets Number.exact among value) :
    schema.Meets Number.units among value :=
  fun assertion listed content found => (meets assertion listed content found).units

theorem of_get? (meets : schema.Meets measure among value)
    (left : ∀ assertion ∈ among, other.get? assertion.name = schema.get? assertion.name ∨
      other.get? assertion.name = none) : other.Meets measure among value := by
  intro assertion listed content found
  rcases left assertion listed with kept | dropped
  · exact meets assertion listed content (kept ▸ found)
  · rw [dropped] at found
    cases found

theorem erase (meets : schema.Meets measure among value) (name : String) :
    (schema.erase name).Meets measure among value := by
  refine meets.of_get? fun assertion _ => ?_
  by_cases same : name = assertion.name
  · exact .inr (same ▸ schema.get?_erase_self name)
  · exact .inl (schema.get?_erase_ne same)

theorem eraseAll (meets : schema.Meets measure among value) (names : List String) :
    (schema.eraseAll names).Meets measure among value := by
  refine meets.of_get? fun assertion _ => ?_
  by_cases erased : assertion.name ∈ names
  · exact .inr (schema.get?_eraseAll_of_mem erased)
  · exact .inl (schema.get?_eraseAll_of_notMem erased)

theorem insert (meets : schema.Meets measure among value) {name : String} {content : Json}
    (holds : ∀ assertion ∈ among, assertion.name = name →
      assertion.Holds measure content value) :
    (schema.insert name content).Meets measure among value := by
  intro assertion listed found present
  by_cases same : assertion.name = name
  · have object : schema.isObject = true := by
      rw [← schema.isObject_insert name content]
      exact isObject_of_get? present
    rw [same, schema.get?_insert_self name content object] at present
    cases present
    exact holds assertion listed same
  · rw [schema.get?_insert_ne content (Ne.symm same)] at present
    exact meets assertion listed found present

theorem insert_assertion (meets : schema.Meets measure among value) (assertion : Assertion)
    {content : Json} (holds : assertion.Holds measure content value) :
    (schema.insert assertion.name content).Meets measure among value :=
  meets.insert fun _ _ same => Assertion.name_injective same ▸ holds

theorem insert_other (meets : schema.Meets measure among value) {name : String} (content : Json)
    (unrelated : ∀ assertion ∈ among, assertion.name ≠ name) :
    (schema.insert name content).Meets measure among value :=
  meets.insert fun assertion listed same => absurd same (unrelated assertion listed)

end Meets

end Json

end SchemaPack
