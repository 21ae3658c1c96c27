import SchemaPack.Canonical
import SchemaPack.Plan

namespace SchemaPack

inductive Stage where
  | compile
  | canonicalize
  | plan
  deriving DecidableEq, Repr

def compile (resolver : Resolver) (default : Option String) (document : Json)
    (limit : Nat := stepLimit) : Traced Json := do
  plan resolver default (← canonicalize resolver default document limit) limit

def Stage.run (stage : Stage) (resolver : Resolver) (default : Option String) (document : Json)
    (limit : Nat := stepLimit) : Traced Json :=
  match stage with
  | .compile => SchemaPack.compile resolver default document limit
  | .canonicalize => SchemaPack.canonicalize resolver default document limit
  | .plan => SchemaPack.plan resolver default document limit

end SchemaPack
