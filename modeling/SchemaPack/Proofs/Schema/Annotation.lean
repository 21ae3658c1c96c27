import SchemaPack.Encoding.Basic
import SchemaPack.Proofs.Canonical.Footprint
import SchemaPack.Proofs.Json.Respelling
import SchemaPack.Proofs.Rules.Invariant

namespace SchemaPack

open Json

/-- The vocabularies of the official 2020-12 dialect. -/
def Vocabulary.official : Vocabularies :=
  [core, applicator, unevaluated, validation, metaData, formatAnnotated, content]

theorem Dialect.vocabularies_draft202012 :
    vocabularies (Encoding.resolver official) draft202012 = .ok Vocabulary.official := by
  decide +kernel

/-- A name of meta-data or of a comment, or one that the official vocabularies do not know. -/
def Keyword.annotates (name : String) : Bool :=
  ["title", "description", "default", "deprecated", "readOnly", "writeOnly", "examples",
    "$comment"].contains name || (find? Vocabulary.official name).isNone

theorem Keyword.annotates_of_visible :
    ∀ name ∈ assertions ++ shown, annotates name = false := by
  decide +kernel

section

variable (resolver : Resolver)

mutual

/-- What is left of a value in a role once annotations are taken out of the subschemas in it that
    are in the official vocabularies. -/
def bareAs (dialect : String) : Option Role → Json → Json
  | some .subschema, .object members =>
    let own := Dialect.ofNode dialect (.object members)
    match Dialect.vocabularies resolver own with
    | .ok vocabularies => .object (bareMembers own vocabularies members)
    | .error _ => .object members
  | some .subschemaList, .array items => .array (bareItems dialect items)
  | some .subschemaMap, .object members => .object (bareEntries dialect members)
  | _, value => value

def bareMembers (dialect : String) (vocabularies : Vocabularies) : List (String × Json) → Members
  | [] => []
  | (name, value) :: rest =>
    if vocabularies = Vocabulary.official ∧ Keyword.annotates name = true then
      bareMembers dialect vocabularies rest
    else
      let role := (Keyword.find? vocabularies name).map Keyword.role
      (name, bareAs dialect role value) :: bareMembers dialect vocabularies rest

def bareItems (dialect : String) : List Json → List Json
  | [] => []
  | item :: rest => bareAs dialect (some .subschema) item :: bareItems dialect rest

def bareEntries (dialect : String) : List (String × Json) → Members
  | [] => []
  | (name, value) :: rest =>
    (name, bareAs dialect (some .subschema) value) :: bareEntries dialect rest

end

/-- A schema without the annotations in its reachable subschemas. -/
def Json.bare (dialect : String) (schema : Json) : Json :=
  bareAs resolver dialect (some .subschema) schema

end

section

variable {resolver : Resolver} {dialect : String}

theorem bareItems_eq (items : List Json) :
    bareItems resolver dialect items = items.map (Json.bare resolver dialect) := by
  induction items with
  | nil => rfl
  | cons item rest ih => rw [bareItems, ih, List.map_cons, Json.bare]

theorem bareEntries_eq (members : Members) :
    bareEntries resolver dialect members =
      members.map fun entry => (entry.1, entry.2.bare resolver dialect) := by
  induction members with
  | nil => rfl
  | cons entry rest ih => rw [bareEntries, ih, List.map_cons, Json.bare]

theorem bareAs_eq_self {role : Option Role} (none : role.all (!·.holdsSubschemas) = true)
    (value : Json) : bareAs resolver dialect role value = value := by
  rcases role with _ | role
  · rw [bareAs] <;> simp
  · cases role with
    | subschema | subschemaList | subschemaMap => cases none
    | identity | reference | comment | assertion | descriptive => rw [bareAs] <;> simp

theorem bareMembers_get? (vocabularies : Vocabularies) (members : Members) {name : String}
    (kept : ¬(vocabularies = Vocabulary.official ∧ Keyword.annotates name = true)) :
    Members.get? (bareMembers resolver dialect vocabularies members) name =
      (Members.get? members name).map
        (bareAs resolver dialect ((Keyword.find? vocabularies name).map Keyword.role)) := by
  induction members with
  | nil => rfl
  | cons entry rest ih =>
    rw [bareMembers, Members.get?_cons]
    by_cases here : entry.1 = name
    · subst here
      rw [if_neg kept, Members.get?_cons, if_pos rfl, if_pos rfl]
      rfl
    · rw [if_neg here, ← ih]
      split
      · rfl
      · rw [Members.get?_cons, if_neg here]

theorem exists_bare_get? (members : Members) : ∃ own vocabularies, ∀ others,
    Dialect.declared? (.object others) = Dialect.declared? (.object members) →
      ∀ name, Keyword.annotates name = false →
        ((Json.object others).bare resolver dialect).get? name = (Members.get? others name).map
          (bareAs resolver own ((Keyword.find? vocabularies name).map Keyword.role)) := by
  have dialects : ∀ others,
      Dialect.declared? (.object others) = Dialect.declared? (.object members) →
        Dialect.ofNode dialect (.object others) = Dialect.ofNode dialect (.object members) := by
    intro others same
    rw [Dialect.ofNode, Dialect.ofNode, same]
  cases known : Dialect.vocabularies resolver (Dialect.ofNode dialect (.object members)) with
  | ok vocabularies =>
    refine ⟨Dialect.ofNode dialect (.object members), vocabularies, fun others same name kept => ?_⟩
    rw [Json.bare, bareAs, dialects others same, known]
    exact bareMembers_get? vocabularies others (by simp [kept])
  | error failure =>
    -- nothing is known there, and nothing is taken out
    refine ⟨dialect, [], fun others same name _ => ?_⟩
    have unknown : (Keyword.find? [] name).map Keyword.role = none := by
      simp [Keyword.find?]
    have self := funext (@bareAs_eq_self resolver dialect none rfl)
    rw [Json.bare, bareAs, dialects others same, known, unknown, self]
    exact Option.map_id'.symm

theorem isObject_bare (node : Json) : (node.bare resolver dialect).isObject = node.isObject := by
  cases node with
  | object members =>
    rw [Json.bare, bareAs]
    split <;> rfl
  | null | bool | number | string | array => rw [Json.bare, bareAs] <;> simp

theorem bare_eq_self {node : Json} (plain : node.isObject = false) :
    node.bare resolver dialect = node := by
  cases node with
  | object => cases plain
  | null | bool | number | string | array => rw [Json.bare, bareAs] <;> simp

end

end SchemaPack
