import SchemaPack.Json.InstanceType
import SchemaPack.Schema.Vocabulary

namespace SchemaPack

/-- What a keyword is for, and whether its value holds subschemas: one, a list or a map of them. -/
inductive Role where
  | identity
  | reference
  | comment
  | assertion
  | descriptive
  | subschema
  | subschemaList
  | subschemaMap
  deriving DecidableEq, Repr

/-- A keyword as a vocabulary defines it. It applies to the given types, to all if none is given. -/
structure Keyword where
  name : String
  vocabulary : String
  role : Role
  dependencies : List String := []
  instanceTypes : List InstanceType := []
  deriving DecidableEq, Repr

namespace Keyword

def appliesTo (keyword : Keyword) (type : InstanceType) : Bool :=
  keyword.instanceTypes.isEmpty || keyword.instanceTypes.contains type.widen

section Table

open Vocabulary

def all : List Keyword := [
  ⟨"$schema", core, .identity, [], []⟩,
  ⟨"$id", core, .identity, [], []⟩,
  ⟨"$anchor", core, .identity, [], []⟩,
  ⟨"$dynamicAnchor", core, .identity, [], []⟩,
  ⟨"$vocabulary", core, .identity, [], []⟩,
  ⟨"$ref", core, .reference, [], []⟩,
  ⟨"$dynamicRef", core, .reference, [], []⟩,
  ⟨"$comment", core, .comment, [], []⟩,
  ⟨"$defs", core, .subschemaMap, [], []⟩,
  ⟨"allOf", applicator, .subschemaList, [], []⟩,
  ⟨"anyOf", applicator, .subschemaList, [], []⟩,
  ⟨"oneOf", applicator, .subschemaList, [], []⟩,
  ⟨"not", applicator, .subschema, [], []⟩,
  ⟨"if", applicator, .subschema, [], []⟩,
  ⟨"then", applicator, .subschema, ["if"], []⟩,
  ⟨"else", applicator, .subschema, ["if"], []⟩,
  ⟨"dependentSchemas", applicator, .subschemaMap, [], [.object]⟩,
  ⟨"prefixItems", applicator, .subschemaList, [], [.array]⟩,
  ⟨"items", applicator, .subschema, ["prefixItems"], [.array]⟩,
  ⟨"contains", applicator, .subschema, [], [.array]⟩,
  ⟨"properties", applicator, .subschemaMap, [], [.object]⟩,
  ⟨"patternProperties", applicator, .subschemaMap, [], [.object]⟩,
  ⟨"additionalProperties", applicator, .subschema, ["properties", "patternProperties"],
    [.object]⟩,
  ⟨"propertyNames", applicator, .subschema, [], [.object]⟩,
  ⟨"unevaluatedItems", unevaluated, .subschema, ["prefixItems", "items", "contains"], [.array]⟩,
  ⟨"unevaluatedProperties", unevaluated, .subschema,
    ["properties", "patternProperties", "additionalProperties"], [.object]⟩,
  ⟨"type", validation, .assertion, [], []⟩,
  ⟨"enum", validation, .assertion, [], []⟩,
  ⟨"const", validation, .assertion, [], []⟩,
  ⟨"multipleOf", validation, .assertion, [], [.number]⟩,
  ⟨"maximum", validation, .assertion, [], [.number]⟩,
  ⟨"exclusiveMaximum", validation, .assertion, [], [.number]⟩,
  ⟨"minimum", validation, .assertion, [], [.number]⟩,
  ⟨"exclusiveMinimum", validation, .assertion, [], [.number]⟩,
  ⟨"maxLength", validation, .assertion, [], [.string]⟩,
  ⟨"minLength", validation, .assertion, [], [.string]⟩,
  ⟨"pattern", validation, .assertion, [], [.string]⟩,
  ⟨"maxItems", validation, .assertion, [], [.array]⟩,
  ⟨"minItems", validation, .assertion, [], [.array]⟩,
  ⟨"uniqueItems", validation, .assertion, [], [.array]⟩,
  ⟨"maxContains", validation, .assertion, ["contains"], [.array]⟩,
  ⟨"minContains", validation, .assertion, ["contains"], [.array]⟩,
  ⟨"maxProperties", validation, .assertion, [], [.object]⟩,
  ⟨"minProperties", validation, .assertion, [], [.object]⟩,
  ⟨"required", validation, .assertion, [], [.object]⟩,
  ⟨"dependentRequired", validation, .assertion, [], [.object]⟩,
  ⟨"title", metaData, .descriptive, [], []⟩,
  ⟨"description", metaData, .descriptive, [], []⟩,
  ⟨"default", metaData, .descriptive, [], []⟩,
  ⟨"deprecated", metaData, .descriptive, [], []⟩,
  ⟨"readOnly", metaData, .descriptive, [], []⟩,
  ⟨"writeOnly", metaData, .descriptive, [], []⟩,
  ⟨"examples", metaData, .descriptive, [], []⟩,
  ⟨"format", formatAnnotated, .descriptive, [], [.string]⟩,
  ⟨"format", formatAsserted, .assertion, [], [.string]⟩,
  ⟨"contentEncoding", content, .descriptive, [], [.string]⟩,
  ⟨"contentMediaType", content, .descriptive, [], [.string]⟩,
  ⟨"contentSchema", content, .subschema, ["contentMediaType"], [.string]⟩]

end Table

/-- What a name means under the active vocabularies. Keywords of the others are unknown. -/
def find? (vocabularies : Vocabularies) (name : String) : Option Keyword :=
  all.find? fun keyword => keyword.name == name && vocabularies.contains keyword.vocabulary

/-- The keywords of the given vocabularies that constrain no value of a type. -/
def inapplicable (type : InstanceType) (vocabularies : List String) : List String :=
  ((all.filter fun keyword =>
    vocabularies.contains keyword.vocabulary && !keyword.appliesTo type).map (·.name)).eraseReps

end Keyword

/-- Says what a name means under the active vocabularies, nothing if it is unknown. -/
abbrev Walker := Vocabularies → String → Option Keyword

end SchemaPack
