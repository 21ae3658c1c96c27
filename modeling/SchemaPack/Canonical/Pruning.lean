import SchemaPack.Rules.Basic
import SchemaPack.Schema.Keyword
import SchemaPack.Schema.Node

namespace SchemaPack.Pruning

structure Family where
  name : String
  vocabularies : List String

def families : List Family := [
  ⟨"applicator", [Vocabulary.applicator]⟩,
  ⟨"validation", [Vocabulary.validation]⟩,
  ⟨"unevaluated", [Vocabulary.unevaluated]⟩,
  ⟨"content", [Vocabulary.content]⟩,
  ⟨"format", [Vocabulary.formatAnnotated, Vocabulary.formatAsserted]⟩]

/-- The single type of the values that a schema admits. Null and the booleans show in `enum` too,
    which is how canonical schemas spell them. -/
def pinnedType? (node : Json) : Option InstanceType :=
  match node.declaredType? with
  | some type => some type
  | none =>
    if node.contains "type" then none
    else
      match node.arrayAt? "enum" with
      | none | some [] => none
      | some values =>
        if values.all (·.isNull) then some .null
        else if values.all (·.bool?.isSome) then some .boolean
        else none

def dropInapplicable (type : InstanceType) (family : Family) : Rule where
  name := "drop_non_" ++ type.name ++ "_" ++ family.name ++ "_keywords"
  condition node context :=
    family.vocabularies.any context.has && pinnedType? node == some type &&
      node.containsAny (Keyword.inapplicable type family.vocabularies)
  transform node := node.eraseAll (Keyword.inapplicable type family.vocabularies)

def rules : List Rule :=
  InstanceType.all.flatMap fun type =>
    (families.filter fun family =>
      !(Keyword.inapplicable type family.vocabularies).isEmpty).map (dropInapplicable type)

end SchemaPack.Pruning
