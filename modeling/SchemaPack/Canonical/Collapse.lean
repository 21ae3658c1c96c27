import SchemaPack.Canonical.Spelling
import SchemaPack.Json.Order

namespace SchemaPack.Collapse

def singleType : Rule where
  name := "single_type_array"
  condition node context :=
    context.has Vocabulary.validation &&
      match node.arrayAt? "type" with
      | some [.string _] => true
      | _ => false
  transform node :=
    match node.arrayAt? "type" with
    | some (type :: _) => node.insert "type" type
    | _ => node

/-- A `const` that the `enum` beside it lists leaves that one value. -/
def constInEnum : Rule where
  name := "const_in_enum"
  condition node context :=
    context.has Vocabulary.validation &&
      match node.get? "const", node.arrayAt? "enum" with
      | some value, some values => values.any (·.equal value)
      | _, _ => false
  transform := Spelling.enumOfConst

/-- Whether `multipleOf` admits a number, as far as integral operands show. Dividing the least word
    by `-1` crashes. -/
def multipleAdmits? (node : Json) (value : Number) : Option Bool :=
  match node.get? "multipleOf" with
  | none => some true
  | some (.number multiple) =>
    if multiple.isIntegral && value.isIntegral then
      match multiple.toInt64? .down, value.toInt64? .down with
      | some m, some v =>
        if m = 0 then some false
        else if v = Int64.minValue ∧ m = -1 then none
        else some (v.toInt.tmod m.toInt == 0)
      | _, _ => some false
    else some false
  | some _ => some false

/-- The number that equal bounds admit, unless other keywords or the type stand against it. -/
def pinned? (node : Json) : Option Number :=
  if !node.containsAny ["const", "enum", "exclusiveMinimum", "exclusiveMaximum"] &&
      (node.hasType .integer || node.hasType .number) then do
    let minimum ← node.numberAt? "minimum"
    let maximum ← node.numberAt? "maximum"
    if minimum.compare maximum == .eq && (!node.hasType .integer || minimum.isIntegral) then
      some minimum
    else none
  else none

/-- Equal bounds admit a single number. -/
def equalBounds : Rule where
  name := "equal_numeric_bounds_as_const"
  condition node context :=
    context.has Vocabulary.validation &&
      (pinned? node).any fun value => multipleAdmits? node value == some true
  transform node :=
    match node.numberAt? "minimum" with
    | some value =>
      (node.eraseAll ["type", "minimum", "maximum", "multipleOf"]).insert "const" (.number value)
    | none => node
  crashes node context :=
    context.has Vocabulary.validation &&
      (pinned? node).any fun value => multipleAdmits? node value == none

def emptyString : Rule where
  name := "empty_string_as_const"
  condition node context :=
    context.has Vocabulary.validation && node.hasType .string && node.zeroAt "maxLength" &&
      node.absentOrZero "minLength" && !node.containsAny ["const", "enum", "pattern"]
  transform node := (node.eraseAll ["maxLength", "minLength"]).insert "const" (.string "")

def emptyArray : Rule where
  name := "empty_array_as_const"
  condition node context :=
    context.has Vocabulary.validation && node.hasType .array && node.zeroAt "maxItems" &&
      node.absentOrZero "minItems" && !node.containsAny ["const", "enum", "contains"]
  transform node :=
    (node.eraseAll ["maxItems", "minItems", "items", "prefixItems", "uniqueItems",
      "unevaluatedItems"]).insert "const" (.array [])

def emptyObject : Rule where
  name := "empty_object_as_const"
  condition node context :=
    context.has Vocabulary.validation && node.hasType .object && node.zeroAt "maxProperties" &&
      node.absentOrZero "minProperties" &&
      (node.get? "required").all (fun required => required.items?.any (·.isEmpty)) &&
      !node.containsAny ["const", "enum"]
  transform node :=
    (node.eraseAll ["maxProperties", "minProperties", "required", "properties",
      "patternProperties", "additionalProperties", "propertyNames", "dependentRequired",
      "dependentSchemas", "unevaluatedProperties"]).insert "const" .emptyObject

/-- The strings among `dependencies` that are not known yet, each once. -/
def missing (known : List Json) : List Json → List Json
  | [] => []
  | .string name :: rest =>
    if .string name ∈ known then missing known rest
    else .string name :: missing (known ++ [.string name]) rest
  | _ :: rest => missing known rest

/-- What an entry of `required` requires in turn, if `dependent` has an array for it. -/
def dependencies? (dependent : Members) : Json → Option (String × List Json)
  | .string name => ((Members.get? dependent name).bind (·.items?)).map fun items => (name, items)
  | _ => none

theorem length_erase_lt {dependent : Members} {entry : Json} {name : String} {items : List Json}
    (h : dependencies? dependent entry = some (name, items)) :
    (Members.erase dependent name).length < dependent.length := by
  cases entry <;> simp only [dependencies?, reduceCtorEq, Option.map_eq_some_iff,
    Option.bind_eq_some_iff, Prod.mk.injEq] at h
  obtain ⟨_, ⟨value, found, _⟩, rfl, _⟩ := h
  apply List.length_filter_lt_length_iff_exists.2
  obtain ⟨before, after, rfl, _⟩ := List.lookup_eq_some_iff.1 found
  exact ⟨_, List.mem_append_right _ List.mem_cons_self, by simp⟩

/-- Adds to `required` what its `pending` part requires in turn, and drops the entries of
    `dependent` that this uses up. -/
def closeRequired (required : List Json) (dependent : Members) :
    List Json → List Json × Members
  | [] => (required, dependent)
  | entry :: pending =>
    match _h : dependencies? dependent entry with
    | some (name, items) =>
      let added := missing required items
      closeRequired (required ++ added) (Members.erase dependent name) (pending ++ added)
    | none => closeRequired required dependent pending
termination_by pending => (dependent.length, pending.length)
decreasing_by
  · exact Prod.Lex.left _ _ (length_erase_lt _h)
  · exact Prod.Lex.right _ (Nat.lt_succ_self _)

/-- What a required property requires is itself required. -/
def requiredDependencies : Rule where
  name := "dependent_required_tautology"
  condition node context :=
    context.has Vocabulary.validation &&
      match node.arrayAt? "required", node.objectAt? "dependentRequired" with
      | some required, some dependent =>
        required.any fun entry => (dependencies? dependent entry).isSome
      | _, _ => false
  transform node :=
    match node.arrayAt? "required", node.objectAt? "dependentRequired" with
    | some required, some dependent =>
      let (required, dependent) := closeRequired required dependent required
      (node.insert "dependentRequired" (.object dependent)).insert "required" (.array required)
    | _, _ => node

/-- How many properties are required, if none is required twice. -/
def distinctRequired? (node : Json) : Option Int64 := do
  let required ← node.arrayAt? "required"
  if Json.hasDuplicates required = some false then word? required.length else none

/-- An object has at least its required properties. -/
def requiredCount : Rule where
  name := "min_properties_required_tautology"
  condition node context :=
    context.has Vocabulary.validation &&
      match (node.numberAt? "minProperties").bind (·.toInt64? .up), distinctRequired? node with
      | some minimum, some count => minimum < count
      | _, _ => false
  transform node :=
    match distinctRequired? node with
    | some count => node.insert "minProperties" (.number (.ofInt64 count))
    | none => node
  crashes node context :=
    context.has Vocabulary.validation &&
      (node.arrayAt? "required").any fun required => (Json.hasDuplicates required).isNone

def duplicates (name keyword vocabulary : String) : Rule where
  name
  condition node context :=
    context.has vocabulary &&
      (node.arrayAt? keyword).any fun values => Json.hasDuplicates values == some true
  transform node :=
    match (node.arrayAt? keyword).bind Json.sortUnique with
    | some values => node.insert keyword (.array values)
    | none => node
  crashes node context :=
    context.has vocabulary && (node.arrayAt? keyword).any fun values =>
      match Json.hasDuplicates values with
      | none => true
      | some found => found && (Json.sortUnique values).isNone

def duplicateAllOf : Rule := duplicates "duplicate_allof_branches" "allOf" Vocabulary.applicator

def duplicateAnyOf : Rule := duplicates "duplicate_anyof_branches" "anyOf" Vocabulary.applicator

def duplicateEnum : Rule := duplicates "duplicate_enum_values" "enum" Vocabulary.validation

def duplicateRequired : Rule :=
  duplicates "duplicate_required_values" "required" Vocabulary.validation

def integralBound (name keyword : String) (rounding : Rounding) : Rule where
  name
  condition node context :=
    context.has Vocabulary.validation && node.hasType .integer &&
      (node.numberAt? keyword).any (!·.isIntegral)
  transform node :=
    match node.numberAt? keyword with
    | some value => node.insert keyword (.number (value.round rounding))
    | none => node

def integralMaximum : Rule := integralBound "maximum_real_for_integer" "maximum" .down

def integralMinimum : Rule := integralBound "minimum_real_for_integer" "minimum" .up

def rules : List Rule := [
  singleType,
  constInEnum,
  equalBounds,
  emptyString,
  emptyArray,
  emptyObject,
  requiredDependencies,
  requiredCount,
  duplicateAllOf,
  duplicateAnyOf,
  duplicateEnum,
  duplicateRequired,
  integralMaximum,
  integralMinimum]

end SchemaPack.Collapse
