import SchemaPack.Failure
import SchemaPack.Json.InstanceType
import SchemaPack.Schema.Vocabulary

namespace SchemaPack

/-- Answers a metaschema for an identifier, nothing if there is none, or how looking it up failed. -/
abbrev Resolver := String → Except Failure (Option Json)

/-- Identifiers are compared without an empty fragment at the end. -/
def normalizeId (id : String) : String :=
  match id.toList.reverse with
  | '#' :: rest => String.ofList rest.reverse
  | _ => id

namespace Dialect

def draft202012 : String := "https://json-schema.org/draft/2020-12/schema"

def draft201909 : String := "https://json-schema.org/draft/2019-09/schema"

def draft07 : String := "http://json-schema.org/draft-07/schema"

def draft06 : String := "http://json-schema.org/draft-06/schema"

def draft04 : String := "http://json-schema.org/draft-04/schema"

def metaschema202012 : Json := .object [
  ("$schema", .string draft202012),
  ("$id", .string draft202012),
  ("$vocabulary", .object [
    (Vocabulary.core, .bool true),
    (Vocabulary.applicator, .bool true),
    (Vocabulary.unevaluated, .bool true),
    (Vocabulary.validation, .bool true),
    (Vocabulary.metaData, .bool true),
    (Vocabulary.formatAnnotated, .bool true),
    (Vocabulary.content, .bool true)]),
  ("$dynamicAnchor", .string "meta"),
  ("title", .string "Core and Validation specifications meta-schema")]

def metaschema201909 : Json := .object [
  ("$schema", .string draft201909),
  ("$id", .string draft201909),
  ("$vocabulary", .object [
    ("https://json-schema.org/draft/2019-09/vocab/core", .bool true),
    ("https://json-schema.org/draft/2019-09/vocab/applicator", .bool true),
    ("https://json-schema.org/draft/2019-09/vocab/validation", .bool true),
    ("https://json-schema.org/draft/2019-09/vocab/meta-data", .bool true),
    ("https://json-schema.org/draft/2019-09/vocab/format", .bool false),
    ("https://json-schema.org/draft/2019-09/vocab/content", .bool true)]),
  ("$recursiveAnchor", .bool true)]

def legacyMetaschema (draft idKeyword : String) : Json := .object [
  ("$schema", .string (draft ++ "#")),
  (idKeyword, .string (draft ++ "#"))]

def officialMetaschemas : List (String × Json) := [
  (draft202012, metaschema202012),
  (draft201909, metaschema201909),
  (draft07, legacyMetaschema draft07 "$id"),
  (draft06, legacyMetaschema draft06 "$id"),
  (draft04, legacyMetaschema draft04 "id")]

def official : Resolver := fun id => .ok (officialMetaschemas.lookup (normalizeId id))

/-- How many metaschemas are looked up before a chain of them counts as unresolvable. -/
def maximumChain : Nat := 16

def metaschema (resolver : Resolver) (dialect : String) : Except Failure Json :=
  let id := normalizeId dialect
  match resolver id with
  | .error failure => .error failure
  | .ok none => .error (.unresolvedMetaschema dialect)
  | .ok (some found) =>
    if found.isObject then .ok found
    else .error (.resolver dialect ("expected a metaschema object, got " ++ found.typeOf.name))

def declared? (schema : Json) : Option String := (schema.get? "$schema").bind (·.string?)

/-- The dialect of a metaschema, unless it is written in its own. -/
def parent? (current : String) (found : Json) : Option String :=
  ((declared? found).map normalizeId).filter (· != current)

/-- Follows the dialects of metaschemas from `current` until one is written in its own. -/
def followBase (resolver : Resolver) (dialect : String) : Nat → String → Except Failure String
  | 0, _ => .error (.unresolvedMetaschema dialect)
  | lookups + 1, current => do
    let found ← metaschema resolver current
    match parent? current found with
    | some parent => followBase resolver dialect lookups parent
    | none => .ok current

def base (resolver : Resolver) (dialect : String) : Except Failure String :=
  followBase resolver dialect maximumChain (normalizeId dialect)

def followVocabularies (resolver : Resolver) (dialect : String) :
    Nat → String → Except Failure Vocabularies
  | 0, _ => .error (.unresolvedMetaschema dialect)
  | lookups + 1, current => do
    let found ← metaschema resolver current
    match (found.get? "$vocabulary").bind (·.members?) with
    | some declared => .ok (declared.map (·.1))
    | none =>
      match parent? current found with
      | some parent => followVocabularies resolver dialect lookups parent
      | none => .ok [current]

/-- The vocabularies of the nearest metaschema in the chain that declares some. A dialect without
    any stands for its only vocabulary. -/
def vocabularies (resolver : Resolver) (dialect : String) : Except Failure Vocabularies :=
  followVocabularies resolver dialect maximumChain (normalizeId dialect)

/-- A node is in the dialect it declares, or else in that of the node around it. -/
def ofNode (inherited : String) (node : Json) : String :=
  ((declared? node).map normalizeId).getD inherited

def ofDocument (schema : Json) (default : Option String) : Except Failure String :=
  match (declared? schema).or default with
  | some dialect => .ok (normalizeId dialect)
  | none => .error .unknownDialect

end Dialect

structure Registry where
  schemas : List (String × Json) := []

namespace Registry

/-- Registers a metaschema, in place of one with the same identifier. There is nothing to register
    it under if it has none. -/
def add? (registry : Registry) (schema : Json) : Option Registry :=
  ((schema.get? "$id").bind (·.string?)).map fun id =>
    ⟨Members.insert registry.schemas (normalizeId id) schema⟩

def resolver (registry : Registry) : Resolver := fun id =>
  match Members.get? registry.schemas (normalizeId id) with
  | some schema => .ok (some schema)
  | none => Dialect.official id

end Registry

end SchemaPack
