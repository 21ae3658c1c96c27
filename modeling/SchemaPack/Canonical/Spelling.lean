import SchemaPack.Rules.Basic
import SchemaPack.Schema.Node

namespace SchemaPack.Spelling

def trueSchema : Rule where
  name := "boolean_schema"
  condition node context := context.has Vocabulary.core && node == .bool true
  transform _ := .emptyObject

def enumOfConst (node : Json) : Json :=
  match node.get? "const" with
  | some value => (node.erase "const").insert "enum" (.array [value])
  | none => node

def constAsEnum : Rule where
  name := "const_as_enum"
  condition node context :=
    context.has Vocabulary.validation && node.contains "const" && !node.contains "enum"
  transform := enumOfConst

def booleanAsEnum : Rule where
  name := "boolean_as_enum"
  condition node context :=
    context.has Vocabulary.validation && node.hasType .boolean &&
      !node.containsAny ["enum", "const"]
  transform node := (node.erase "type").insert "enum" (.array [.bool false, .bool true])

def nullAsConst : Rule where
  name := "null_as_const"
  condition node context :=
    context.has Vocabulary.validation && node.hasType .null &&
      !node.containsAny ["enum", "const"]
  transform node := (node.erase "type").insert "const" .null

/-- The keywords that stay on a node when its types are split. -/
def wrapperKeywords : List String :=
  ["$schema", "$id", "$anchor", "$dynamicAnchor", "$vocabulary", "$defs", "$comment"]

/-- The branch for one of several types: the type, then all that moves from the node. -/
def branch (members : Members) (type : Json) : Json :=
  .object (("type", type) :: members.filter fun entry =>
    !wrapperKeywords.contains entry.1 && entry.1 != "type")

def splitTypes (node : Json) : Json :=
  match node, node.arrayAt? "type" with
  | .object members, some types =>
    let wrapper := members.filter fun entry => wrapperKeywords.contains entry.1
    .object (wrapper ++ [("anyOf", .array (types.map (branch members)))])
  | _, _ => node

def typeUnion : Rule where
  name := "type_union_anyof"
  condition node context :=
    context.has Vocabulary.validation && context.has Vocabulary.applicator &&
      (node.arrayAt? "type").any fun types =>
        1 < types.length && types.all (·.string?.isSome)
  transform := splitTypes

/-- The inclusive bound on integers that is the same as an exclusive one. -/
def inclusive? (rounding : Rounding) (step : Int) (exclusive : Number) : Option Number :=
  if exclusive.isIntegral then exclusive.offset? step else some (exclusive.round rounding)

/-- Spells an exclusive bound on integers as an inclusive one. -/
def inclusiveBound (name exclusive inclusive : String) (rounding : Rounding) (step : Int) :
    Rule where
  name
  condition node context :=
    context.has Vocabulary.validation && node.hasType .integer && !node.contains inclusive &&
      ((node.numberAt? exclusive).bind (inclusive? rounding step)).isSome
  transform node :=
    match (node.numberAt? exclusive).bind (inclusive? rounding step) with
    | some bound => (node.erase exclusive).insert inclusive (.number bound)
    | none => node

def inclusiveMaximum : Rule :=
  inclusiveBound "exclusive_maximum_integer_to_maximum" "exclusiveMaximum" "maximum" .down (-1)

def inclusiveMinimum : Rule :=
  inclusiveBound "exclusive_minimum_integer_to_minimum" "exclusiveMinimum" "minimum" .up 1

def rules : List Rule := [
  trueSchema,
  constAsEnum,
  booleanAsEnum,
  nullAsConst,
  typeUnion,
  inclusiveMaximum,
  inclusiveMinimum]

end SchemaPack.Spelling
