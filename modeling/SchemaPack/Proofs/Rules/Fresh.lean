import SchemaPack.Proofs.Rules.Traced
import SchemaPack.Rules.Saturation

namespace SchemaPack

def Context.of (resolver : Resolver) (inherited : String) (pointer : Pointer) (node : Json) :
    Except Failure Context := do
  let dialect := Dialect.ofNode inherited node
  let frame ← Frame.of resolver dialect
  return { frame with dialect, pointer }

theorem Context.of_eq_ok_iff {resolver : Resolver} {inherited : String} {pointer : Pointer}
    {node : Json} {context : Context} :
    Context.of resolver inherited pointer node = .ok context ↔
      Dialect.base resolver context.dialect = .ok context.baseDialect ∧
        Dialect.vocabularies resolver context.dialect = .ok context.vocabularies ∧
          context.dialect = Dialect.ofNode inherited node ∧ context.pointer = pointer := by
  obtain ⟨dialect, baseDialect, vocabularies, place⟩ := context
  unfold Context.of Frame.of
  dsimp only
  constructor
  · intro h
    cases base : Dialect.base resolver (Dialect.ofNode inherited node) <;> rw [base] at h
    case error => cases h
    cases known : Dialect.vocabularies resolver (Dialect.ofNode inherited node) <;>
      rw [known] at h
    case error => cases h
    cases h
    exact ⟨base, known, rfl, rfl⟩
  · rintro ⟨base, known, rfl, rfl⟩
    rw [base, known]
    rfl

theorem Context.of_dialect {resolver : Resolver} {inherited : String} {pointer : Pointer}
    {node : Json} {context : Context}
    (h : Context.of resolver inherited pointer node = .ok context) :
    context.dialect = Dialect.ofNode inherited node :=
  (Context.of_eq_ok_iff.mp h).2.2.1

theorem Context.of_bind {α : Type} (resolver : Resolver) (inherited : String) (pointer : Pointer)
    (node : Json) (f : Context → Traced α) :
    Traced.ofExcept (Context.of resolver inherited pointer node) >>= f =
      Traced.ofExcept (Frame.of resolver (Dialect.ofNode inherited node)) >>= fun frame =>
        f { frame with dialect := Dialect.ofNode inherited node, pointer } := by
  cases answer : Frame.of resolver (Dialect.ofNode inherited node) with
  | ok frame =>
    simp only [Context.of, answer]
    rfl
  | error failure =>
    simp only [Context.of, answer]
    rfl

namespace Fresh

def settle (rules : List Rule) (resolver : Resolver) (inherited : String) (pointer : Pointer) :
    Nat → Json → Traced (Context × Json)
  | 0, _ => .stop .outOfSteps
  | steps + 1, node => do
    let context ← .ofExcept (Context.of resolver inherited pointer node)
    let applied ← Rule.first node context rules
    .emit (.examined context node applied)
    match applied with
    | some rule => settle rules resolver inherited pointer steps (rule.transform node)
    | none => return (context, node)

/-- A node is settled if no rule matches it, or if what the first rule makes of it is. -/
theorem settle_succ {rules : List Rule} {resolver : Resolver} {inherited : String}
    {pointer : Pointer} {steps : Nat} {node settled : Json} {context : Context}
    (h : (settle rules resolver inherited pointer (steps + 1) node).result =
      .ok (context, settled)) :
    ∃ found, Context.of resolver inherited pointer node = .ok found ∧
      ((Rule.Idle rules node found ∧ context = found ∧ settled = node) ∨
        ∃ rule, rules.find? (·.condition node found) = some rule ∧
          (settle rules resolver inherited pointer steps (rule.transform node)).result =
            .ok (context, settled)) := by
  rw [settle] at h
  obtain ⟨found, here, h⟩ := Traced.ofExcept_bind_ok h
  obtain ⟨applied, first, h⟩ := Traced.bind_result_ok h
  obtain ⟨_, _, h⟩ := Traced.bind_result_ok h
  refine ⟨found, here, ?_⟩
  cases applied with
  | none =>
    cases h
    exact .inl ⟨Rule.idle_of_first first, rfl, rfl⟩
  | some rule => exact .inr ⟨rule, (Rule.first_result_ok first).symm, h⟩

section Children

variable (walker : Walker) (visit : Pointer → Json → Traced Json)

def visitItems (pointer : Pointer) : Nat → List Json → Traced (List Json)
  | _, [] => return []
  | index, item :: rest => do
    let item ← visit (pointer.item index) item
    let rest ← visitItems pointer (index + 1) rest
    return item :: rest

def visitEntries (pointer : Pointer) : List (String × Json) → Traced Members
  | [] => return []
  | (name, value) :: rest => do
    let value ← visit (pointer.child name) value
    let rest ← visitEntries pointer rest
    return (name, value) :: rest

def visitKeyword (vocabularies : Vocabularies) (pointer : Pointer) (name : String)
    (value : Json) : Traced Json :=
  match (walker vocabularies name).map Keyword.role, value with
  | some .subschema, value => visit (pointer.child name) value
  | some .subschemaList, .array items => do
    let items ← visitItems visit (pointer.child name) 0 items
    return .array items
  | some .subschemaMap, .object members => do
    let members ← visitEntries visit (pointer.child name) members
    return .object members
  | _, value => return value

def visitKeywords (vocabularies : Vocabularies) (pointer : Pointer) :
    List (String × Json) → Traced Members
  | [] => return []
  | (name, value) :: rest => do
    let value ← visitKeyword walker visit vocabularies pointer name value
    let rest ← visitKeywords vocabularies pointer rest
    return (name, value) :: rest

end Children

def visitMembers (visit : String → Json → Traced Json) : Members → Traced Members
  | [] => return []
  | (name, value) :: rest => do
    let value ← visit name value
    let rest ← visitMembers visit rest
    return (name, value) :: rest

theorem visitEntries_eq (visit : Pointer → Json → Traced Json) (pointer : Pointer)
    (members : Members) :
    visitEntries visit pointer members =
      visitMembers (fun name => visit (pointer.child name)) members := by
  induction members with
  | nil => rfl
  | cons entry rest ih => rw [visitEntries, visitMembers, ih]

theorem visitKeywords_eq (walker : Walker) (visit : Pointer → Json → Traced Json)
    (vocabularies : Vocabularies) (pointer : Pointer) (members : Members) :
    visitKeywords walker visit vocabularies pointer members =
      visitMembers (visitKeyword walker visit vocabularies pointer) members := by
  induction members with
  | nil => rfl
  | cons entry rest ih => rw [visitKeywords, visitMembers, ih]

def visit (rules : List Rule) (walker : Walker) (resolver : Resolver) :
    Nat → String → Pointer → Json → Traced Json
  | 0, _, _, _ => .stop .outOfSteps
  | steps + 1, inherited, pointer, node => do
    let (context, node) ← settle rules resolver inherited pointer steps node
    match node with
    | .object members =>
      let members ← visitKeywords walker (visit rules walker resolver steps context.dialect)
        context.vocabularies pointer members
      return .object members
    | other => return other

def runPasses (rules : List Rule) (walker : Walker) (resolver : Resolver) (dialect : String) :
    Nat → Nat → Nat → Json → Traced Json
  | 0, _, _, _ => .stop .outOfSteps
  | steps + 1, number, applied, document => do
    let pass := visit rules walker resolver steps dialect .root document
    let document ← pass
    let changed : Bool := 0 < pass.applications
    .emit (.passed number changed)
    if changed then
      runPasses rules walker resolver dialect steps (number + 1) (applied + pass.applications)
        document
    else
      .emit (.settled number applied)
      return document

end Fresh

end SchemaPack
