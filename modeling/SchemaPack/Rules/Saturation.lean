import SchemaPack.Rules.Basic
import SchemaPack.Schema.Keyword

namespace SchemaPack

/-- What a run remembers: the frames of the dialects it has met and how many rules it applied. -/
structure Session where
  frames : List (String × Frame) := []
  applied : Nat := 0

abbrev Walk := StateT Session Traced

namespace Walk

/-- The frame of a dialect. The metaschemas are followed when a dialect is met first. -/
def frame (resolver : Resolver) (dialect : String) : Walk Frame := do
  match (← get).frames.lookup dialect with
  | some frame => return frame
  | none =>
    let frame ← Traced.ofExcept (Frame.of resolver dialect)
    modify fun session => { session with frames := (dialect, frame) :: session.frames }
    return frame

/-- Applies the first rule that matches a node until none does, in a bounded number of steps.
    Tells whether any was applied, unless `changed` says so already. -/
def settle (rules : List Rule) (resolver : Resolver) (inherited : String) (pointer : Pointer) :
    Nat → Bool → Json → Walk (Bool × Context × Json)
  | 0, _, _ => Traced.stop .outOfSteps
  | steps + 1, changed, node => do
    let dialect := Dialect.ofNode inherited node
    let frame ← frame resolver dialect
    let context : Context := { frame with dialect, pointer }
    let applied ← Rule.first node context rules
    Traced.emit (.examined context node applied)
    match applied with
    | some rule =>
      modify fun session => { session with applied := session.applied + 1 }
      settle rules resolver inherited pointer steps true (rule.transform node)
    | none => return (changed, context, node)

section Children

variable (walker : Walker) (visit : Pointer → Json → Walk (Bool × Json))

def visitItems (pointer : Pointer) : Nat → Bool → List Json → Walk (Bool × List Json)
  | _, changed, [] => return (changed, [])
  | index, changed, item :: rest => do
    let (inside, item) ← visit (pointer.item index) item
    let (changed, rest) ← visitItems pointer (index + 1) (changed || inside) rest
    return (changed, item :: rest)

def visitEntries (pointer : Pointer) : Bool → List (String × Json) → Walk (Bool × Members)
  | changed, [] => return (changed, [])
  | changed, (name, value) :: rest => do
    let (inside, value) ← visit (pointer.child name) value
    let (changed, rest) ← visitEntries pointer (changed || inside) rest
    return (changed, (name, value) :: rest)

/-- Visits the subschemas in the value of a keyword, where the value has the shape for it. -/
def visitKeyword (vocabularies : Vocabularies) (pointer : Pointer) (changed : Bool)
    (name : String) (value : Json) : Walk (Bool × Json) :=
  match (walker vocabularies name).map Keyword.role, value with
  | some .subschema, value => do
    let (inside, value) ← visit (pointer.child name) value
    return (changed || inside, value)
  | some .subschemaList, .array items => do
    let (changed, items) ← visitItems visit (pointer.child name) 0 changed items
    return (changed, .array items)
  | some .subschemaMap, .object members => do
    let (changed, members) ← visitEntries visit (pointer.child name) changed members
    return (changed, .object members)
  | _, value => return (changed, value)

def visitKeywords (vocabularies : Vocabularies) (pointer : Pointer) :
    Bool → List (String × Json) → Walk (Bool × Members)
  | changed, [] => return (changed, [])
  | changed, (name, value) :: rest => do
    let (changed, value) ← visitKeyword walker visit vocabularies pointer changed name value
    let (changed, rest) ← visitKeywords vocabularies pointer changed rest
    return (changed, (name, value) :: rest)

end Children

/-- Settles a node, then visits its subschemas in the order of its keywords. Tells whether any rule
    was applied. -/
def visit (rules : List Rule) (walker : Walker) (resolver : Resolver) :
    Nat → String → Pointer → Json → Walk (Bool × Json)
  | 0, _, _, _ => Traced.stop .outOfSteps
  | steps + 1, inherited, pointer, node => do
    let (changed, context, node) ← settle rules resolver inherited pointer steps false node
    match node with
    | .object members =>
      let (changed, members) ← visitKeywords walker
        (visit rules walker resolver steps context.dialect) context.vocabularies pointer changed
        members
      return (changed, .object members)
    | other => return (changed, other)

/-- Passes over the document, of which `number` is next, until a pass changes nothing. -/
def runPasses (rules : List Rule) (walker : Walker) (resolver : Resolver) (dialect : String) :
    Nat → Nat → Json → Walk Json
  | 0, _, _ => Traced.stop .outOfSteps
  | steps + 1, number, document => do
    let (changed, document) ← visit rules walker resolver steps dialect .root document
    Traced.emit (.passed number changed)
    if changed then runPasses rules walker resolver dialect steps (number + 1) document
    else
      Traced.emit (.settled number (← get).applied)
      return document

end Walk

/-- More steps than any run takes that comes to an end in practice. -/
def stepLimit : Nat := 4611686018427387904

/-- Applies rules to a document until none matches any of its subschemas. No loop takes more than
    `limit` steps. -/
def saturate (rules : List Rule) (resolver : Resolver) (default : Option String)
    (document : Json) (limit : Nat := stepLimit) (walker : Walker := Keyword.find?) :
    Traced Json := do
  let dialect ← .ofExcept (Dialect.ofDocument document default)
  let (document, _) ← (Walk.runPasses rules walker resolver dialect limit 1 document).run {}
  return document

end SchemaPack
