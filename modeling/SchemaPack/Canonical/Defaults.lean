import SchemaPack.Rules.Basic
import SchemaPack.Schema.Node

namespace SchemaPack.Defaults

def typeConstraining : List String :=
  ["type", "const", "enum", "$ref", "$dynamicRef", "anyOf", "allOf", "oneOf", "not", "if", "then",
    "else"]

/-- A schema that does not constrain the type admits them all. -/
def allTypes : Rule where
  name := "implicit_type_union"
  condition node context :=
    context.has Vocabulary.validation && node.isObject && !node.containsAny typeConstraining
  transform node :=
    node.insert "type" (.array (InstanceType.all.map fun type => .string type.name))

/-- Writes out the default of a keyword for schemas of one type that list no values. -/
def default (name : String) (type : InstanceType) (vocabulary keyword : String) (value : Json) :
    Rule where
  name
  condition node context :=
    context.has vocabulary && node.hasType type && !node.containsAny ["enum", "const", keyword]
  transform node := node.insert keyword value

def multipleOf : Rule :=
  default "implicit_unit_multiple_of" .integer Vocabulary.validation "multipleOf"
    (.number (.integer 1))

def minItems : Rule :=
  default "implicit_array_lower_bound" .array Vocabulary.validation "minItems" (.number .zero)

def minLength : Rule :=
  default "implicit_string_lower_bound" .string Vocabulary.validation "minLength" (.number .zero)

def minProperties : Rule :=
  default "implicit_object_lower_bound" .object Vocabulary.validation "minProperties"
    (.number .zero)

def required : Rule :=
  default "implicit_object_required" .object Vocabulary.validation "required" (.array [])

def properties : Rule :=
  default "implicit_object_properties" .object Vocabulary.applicator "properties" .emptyObject

def rules : List Rule := [
  allTypes,
  multipleOf,
  minItems,
  minLength,
  minProperties,
  required,
  properties]

end SchemaPack.Defaults
