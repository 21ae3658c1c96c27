import SchemaPack.Json.Order
import SchemaPack.Rules.Basic
import SchemaPack.Schema.Keyword
import SchemaPack.Schema.Node

namespace SchemaPack.Redundancy

/-- A keyword that does nothing without its companion. -/
def withoutCompanion (name vocabulary keyword companion : String) : Rule where
  name
  condition node context :=
    context.has vocabulary && node.contains keyword && !node.contains companion
  transform node := node.erase keyword

def contentSchemaWithoutMediaType : Rule :=
  withoutCompanion "content_schema_without_content_media_type" Vocabulary.content
    "contentSchema" "contentMediaType"

def maxContainsWithoutContains : Rule :=
  withoutCompanion "max_contains_without_contains" Vocabulary.validation "maxContains" "contains"

def minContainsWithoutContains : Rule :=
  withoutCompanion "min_contains_without_contains" Vocabulary.validation "minContains" "contains"

/-- An array has no more matches than items. -/
def maxContainsAboveMaxItems : Rule where
  name := "unsatisfiable_max_contains"
  condition node context :=
    context.has Vocabulary.validation &&
      match node.numberAt? "maxContains", node.numberAt? "maxItems" with
      | some matched, some items => matched.compare items != .lt
      | _, _ => false
  transform node := node.erase "maxContains"

def isShort (value : Json) : Bool := value.items?.all (·.length ≤ 1)

/-- Items cannot repeat where there is at most one. -/
def impliedUniqueItems : Rule where
  name := "implied_array_unique_items"
  condition node context :=
    context.has Vocabulary.validation && (node.get? "uniqueItems").any (· == .bool true) &&
      (node.atMost "maxItems" 1 || (node.get? "const").any isShort ||
        (node.arrayAt? "enum").any (·.all isShort))
  transform node := node.erase "uniqueItems"

def ifWithoutBranches : Rule where
  name := "if_without_then_else"
  condition node context :=
    context.has Vocabulary.applicator && node.contains "if" &&
      !node.containsAny ["then", "else"]
  transform node := node.erase "if"

def branchesWithoutIf : Rule where
  name := "then_else_without_if"
  condition node context :=
    context.has Vocabulary.applicator && !node.contains "if" &&
      node.containsAny ["then", "else"]
  transform node := node.eraseAll ["then", "else"]

def emptyObject (name vocabulary keyword : String) : Rule where
  name
  condition node context :=
    context.has vocabulary && (node.objectAt? keyword).any (·.isEmpty)
  transform node := node.erase keyword

def emptyPatternProperties : Rule :=
  emptyObject "empty_pattern_properties" Vocabulary.applicator "patternProperties"

def emptyDependentRequired : Rule :=
  emptyObject "empty_dependent_required" Vocabulary.validation "dependentRequired"

/-- Of an inclusive and an exclusive bound the tighter one is kept. The inclusive one is tighter if
    it compares as `tighter` with the other. -/
def tighterBound (name inclusive exclusive : String) (tighter : Ordering) : Rule where
  name
  condition node context :=
    context.has Vocabulary.validation && (node.numberAt? inclusive).isSome &&
      (node.numberAt? exclusive).isSome
  transform node :=
    match node.numberAt? inclusive, node.numberAt? exclusive with
    | some closed, some opened =>
      node.erase (if closed.compare opened = tighter then exclusive else inclusive)
    | _, _ => node

def tighterMaximum : Rule :=
  tighterBound "exclusive_maximum_number_and_maximum" "maximum" "exclusiveMaximum" .lt

def tighterMinimum : Rule :=
  tighterBound "exclusive_minimum_number_and_minimum" "minimum" "exclusiveMinimum" .gt

def constWithType : Rule where
  name := "const_with_type"
  condition node context :=
    context.has Vocabulary.validation &&
      match node.declaredType?, node.get? "const" with
      | some type, some value => value.isInstanceOf type
      | _, _ => false
  transform node := node.erase "type"

def enumWithType : Rule where
  name := "enum_with_type"
  condition node context :=
    context.has Vocabulary.validation &&
      match node.declaredType?, node.arrayAt? "enum" with
      | some type, some values => !values.isEmpty && values.all (·.isInstanceOf type)
      | _, _ => false
  transform node := node.erase "type"

/-- The assertions of a node that constrain no member of its `enum`. -/
def idleBesideEnum (node : Json) : List String :=
  match node.arrayAt? "enum" with
  | none => []
  | some values =>
    if values.isEmpty || node.contains "type" then []
    else
      let types := values.map (·.typeOf)
      (Keyword.all.filter fun keyword =>
        keyword.vocabulary == Vocabulary.validation && node.contains keyword.name &&
          !types.any keyword.appliesTo).map (·.name)

def idleAssertionsBesideEnum : Rule where
  name := "non_applicable_enum_validation_keywords"
  condition node context :=
    context.has Vocabulary.validation && !(idleBesideEnum node).isEmpty
  transform node := node.eraseAll (idleBesideEnum node)

def rules : List Rule := [
  contentSchemaWithoutMediaType,
  maxContainsWithoutContains,
  minContainsWithoutContains,
  maxContainsAboveMaxItems,
  impliedUniqueItems,
  ifWithoutBranches,
  branchesWithoutIf,
  emptyPatternProperties,
  emptyDependentRequired,
  tighterMaximum,
  tighterMinimum,
  constWithType,
  enumWithType,
  idleAssertionsBesideEnum]

end SchemaPack.Redundancy
