import SchemaPack.Json.Pointer
import SchemaPack.Schema.Dialect

namespace SchemaPack

structure Frame where
  baseDialect : String
  vocabularies : Vocabularies
  deriving DecidableEq, Repr

def Frame.of (resolver : Resolver) (dialect : String) : Except Failure Frame := do
  let baseDialect ← Dialect.base resolver dialect
  let vocabularies ← Dialect.vocabularies resolver dialect
  return { baseDialect, vocabularies }

structure Context where
  dialect : String
  baseDialect : String
  vocabularies : Vocabularies
  pointer : Pointer
  deriving DecidableEq, Repr

def Context.has (context : Context) (vocabulary : String) : Bool :=
  context.vocabularies.contains vocabulary

structure Rule where
  name : String
  condition : Json → Context → Bool
  transform : Json → Json
  /-- Whether it crashes to decide on a node, or to rewrite it if the rule matches. -/
  crashes : Json → Context → Bool := fun _ _ => false

inductive Event where
  | examined (context : Context) (node : Json) (applied : Option Rule)
  | passed (number : Nat) (changed : Bool)
  | settled (passes applications : Nat)
  | fellBack

def Event.isApplication : Event → Bool
  | .examined _ _ (some _) => true
  | _ => false

/-- The outcome of a computation with the events up to its end. -/
structure Traced (α : Type) where
  events : List Event
  result : Except Stop α

namespace Traced

def bind {α β : Type} (x : Traced α) (f : α → Traced β) : Traced β :=
  match x.result with
  | .ok a => let y := f a; ⟨x.events ++ y.events, y.result⟩
  | .error stop => ⟨x.events, .error stop⟩

instance : Monad Traced where
  pure a := ⟨[], .ok a⟩
  bind := bind

def stop {α : Type} (stop : Stop) : Traced α := ⟨[], .error stop⟩

def ofExcept {α : Type} (result : Except Failure α) : Traced α := ⟨[], result.mapError .failed⟩

def emit (event : Event) : Traced Unit := ⟨[event], .ok ()⟩

def applications {α : Type} (x : Traced α) : Nat := x.events.countP (·.isApplication)

end Traced

/-- The first rule that matches a node, if no rule up to it crashes. -/
def Rule.first (node : Json) (context : Context) : List Rule → Traced (Option Rule)
  | [] => return none
  | rule :: rest =>
    if rule.crashes node context then .stop .crashed
    else if rule.condition node context then return some rule
    else first node context rest

end SchemaPack
