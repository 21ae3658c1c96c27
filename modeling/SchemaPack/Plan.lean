import SchemaPack.Plan.Integers
import SchemaPack.Rules.Saturation

namespace SchemaPack

def planRules : List Rule := Choices.rules ++ Integers.rules ++ Reals.rules

/-- Replaces a canonical schema with an encoding. A root that no rule matches gets the encoding
    that describes itself. -/
def plan (resolver : Resolver) (default : Option String) (document : Json)
    (limit : Nat := stepLimit) : Traced Json := do
  let resolver := Encoding.resolver resolver
  let dialect ← .ofExcept (Dialect.ofDocument document default)
  let base ← .ofExcept (Dialect.base resolver dialect)
  if base ≠ Dialect.draft202012 then .stop (.failed (.unsupportedDialect base))
  else
    let planned ← saturate planRules resolver default document limit
    let dialect ← .ofExcept (Dialect.ofDocument planned default)
    if Encoding.isEncoding dialect planned then return planned
    else
      .emit .fellBack
      return Encoding.wrap "ANY_PACKED_TYPE_TAG_BYTE_PREFIX" .emptyObject

end SchemaPack
