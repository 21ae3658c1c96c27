import SchemaPack.Canonical.Collapse
import SchemaPack.Canonical.Defaults
import SchemaPack.Canonical.Pruning
import SchemaPack.Canonical.Redundancy
import SchemaPack.Canonical.Spelling
import SchemaPack.Encoding.Basic
import SchemaPack.Rules.Saturation

namespace SchemaPack

/-- The rules of the canonical form. Defaults come last, so that a schema with a single value
    becomes a constant before anything is added to it. -/
def canonicalRules : List Rule :=
  Redundancy.rules ++ Spelling.rules ++ Collapse.rules ++ Pruning.rules ++ Defaults.rules

def canonicalize (resolver : Resolver) (default : Option String) (document : Json)
    (limit : Nat := stepLimit) : Traced Json :=
  saturate canonicalRules (Encoding.resolver resolver) default document limit

end SchemaPack
