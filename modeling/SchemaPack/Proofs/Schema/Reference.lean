import SchemaPack.Json.Reader
import SchemaPack.Proofs.Json.Entries
import SchemaPack.Proofs.Rules.Parts

namespace SchemaPack

namespace Pointer

/-- The octets of a fragment. An octet may be written as a percent sign and two hexadecimal
    digits. -/
def octets? : List Char → Option (List UInt8)
  | [] => some []
  | '%' :: high :: low :: rest => do
    let octet := (← Json.hexValue? high) * 16 + (← Json.hexValue? low)
    return UInt8.ofNat octet :: (← octets? rest)
  | c :: rest => if c = '%' then none else return String.utf8EncodeChar c ++ (← octets? rest)

/-- The pointer that a reference into its own document holds as a fragment. -/
def ofFragment? (reference : String) : Option Pointer :=
  match reference.toList with
  | '#' :: fragment => do
    let octets ← octets? fragment
    let text ← String.fromUTF8? ⟨octets.toArray⟩
    ofText? text
  | _ => none

example : ofFragment? "#/$defs/a%20b~1c" = some ⟨["$defs", "a b/c"]⟩ := by decide +kernel

end Pointer

namespace Json

mutual

def valuesOf (name : String) : Json → List Json
  | .array items => valuesOfItems name items
  | .object members => valuesOfMembers name members
  | .null | .bool _ | .number _ | .string _ => []

def valuesOfItems (name : String) : List Json → List Json
  | [] => []
  | item :: rest => valuesOf name item ++ valuesOfItems name rest

def valuesOfMembers (name : String) : List (String × Json) → List Json
  | [] => []
  | (key, value) :: rest =>
    (if key = name then [value] else []) ++ valuesOf name value ++ valuesOfMembers name rest

end

theorem valuesOf_subset_items {name : String} {items : List Json} {item : Json}
    (listed : item ∈ items) : item.valuesOf name ⊆ valuesOfItems name items := by
  induction items with
  | nil => cases listed
  | cons first rest ih =>
    rw [valuesOfItems]
    rcases List.mem_cons.mp listed with rfl | later
    · exact List.subset_append_left _ _
    · exact List.Subset.trans (ih later) (List.subset_append_right _ _)

theorem valuesOf_subset_entry (name : String) {members : Members} {entry : String × Json}
    (listed : entry ∈ members) :
    (if entry.1 = name then [entry.2] else []) ++ entry.2.valuesOf name ⊆
      (object members).valuesOf name := by
  rw [valuesOf]
  induction members with
  | nil => cases listed
  | cons first rest ih =>
    rw [valuesOfMembers]
    rcases List.mem_cons.mp listed with rfl | later
    · exact List.subset_append_left _ _
    · exact List.Subset.trans (ih later) (List.subset_append_right _ _)

theorem mem_valuesOf {members : Members} {name : String} {value : Json}
    (entry : (name, value) ∈ members) : value ∈ (object members).valuesOf name := by
  apply valuesOf_subset_entry name entry
  simp

theorem valuesOf_subset (name : String) {members : Members} {entry : String × Json}
    (listed : entry ∈ members) : entry.2.valuesOf name ⊆ (object members).valuesOf name :=
  List.Subset.trans (List.subset_append_right _ _) (valuesOf_subset_entry name listed)

end Json

/-- Whether a reference points into its own document, at something that is there. -/
def Designates (document reference : Json) (pointer : Pointer) : Prop :=
  reference.string?.bind Pointer.ofFragment? = some pointer ∧
    (pointer.select? document).isSome = true

theorem exists_designates_iff {document reference : Json} :
    (∃ pointer, Designates document reference pointer) ↔
      ((reference.string?.bind Pointer.ofFragment?).any
        fun pointer => (pointer.select? document).isSome) = true := by
  rw [Option.any_eq_true]
  rfl

/-- Whether a reference stands at a subschema that can be reached from a node. -/
def Refers (walker : Walker) (resolver : Resolver) (site : Site) (reference : Json) : Prop :=
  ∃ inner, Relation.ReflTransGen (Subschema walker resolver) site inner ∧
    ("$ref", reference) ∈ inner.node.entries

/-- Whether every reference that can be reached in a document points at something there. -/
def Resolvable (walker : Walker) (resolver : Resolver) (dialect : String) (document : Json) :
    Prop :=
  ∀ reference, Refers walker resolver ⟨dialect, .root, document⟩ reference →
    ∃ pointer, Designates document reference pointer

section Refers

variable {walker : Walker} {resolver : Resolver} {reference : Json}

theorem Refers.inside {site child : Site} (step : Subschema walker resolver site child)
    (refers : Refers walker resolver child reference) : Refers walker resolver site reference := by
  obtain ⟨inner, path, entry⟩ := refers
  exact ⟨inner, .head step path, entry⟩

theorem refers_iff {site : Site} : Refers walker resolver site reference ↔
    ("$ref", reference) ∈ site.node.entries ∨
      ∃ child, Subschema walker resolver site child ∧ Refers walker resolver child reference := by
  constructor
  · rintro ⟨inner, path, entry⟩
    rcases path.cases_head with rfl | ⟨child, step, path⟩
    · exact .inl entry
    · exact .inr ⟨child, step, inner, path, entry⟩
  · rintro (entry | ⟨child, step, refers⟩)
    · exact ⟨site, .refl, entry⟩
    · exact refers.inside step

theorem not_refers_of_entries {site : Site} (none : site.node.entries = []) :
    ¬Refers walker resolver site reference := by
  intro refers
  rcases refers_iff.mp refers with entry | ⟨child, step, _⟩
  · rw [none] at entry
    cases entry
  · cases step with
    | value _ entry | element _ entry | member _ entry =>
      cases none
      cases entry

theorem Refers.mem_valuesOf {site : Site} (refers : Refers walker resolver site reference) :
    reference ∈ site.node.valuesOf "$ref" := by
  obtain ⟨⟨_, _, node⟩, path, entry⟩ := refers
  induction path using Relation.ReflTransGen.head_induction_on with
  | refl =>
    cases node with
    | object members => exact Json.mem_valuesOf entry
    | null | bool | number | string | array => cases entry
  | head step _ ih =>
    cases step with
    | value _ holder _ => exact Json.valuesOf_subset _ holder ih
    | element _ holder _ item =>
      have listed := List.mem_of_getElem? item
      exact Json.valuesOf_subset _ holder (Json.valuesOf_subset_items listed ih)
    | member _ holder _ inner =>
      exact Json.valuesOf_subset _ holder (Json.valuesOf_subset _ inner ih)

theorem resolvable_of_valuesOf {dialect : String} {document : Json}
    (all : ∀ reference ∈ document.valuesOf "$ref",
      ((reference.string?.bind Pointer.ofFragment?).any
        fun pointer => (pointer.select? document).isSome) = true) :
    Resolvable walker resolver dialect document :=
  fun reference refers => exists_designates_iff.mpr (all reference refers.mem_valuesOf)

theorem Context.of_moved {inherited outer : String} {pointer : Pointer} {node other : Json}
    {context : Context} (here : Context.of resolver inherited pointer node = .ok context)
    (same : Dialect.ofNode outer other = Dialect.ofNode inherited node) (place : Pointer) :
    Context.of resolver outer place other = .ok { context with pointer := place } := by
  rw [Context.of_eq_ok_iff] at here ⊢
  exact ⟨here.1, here.2.1, here.2.2.1.trans same.symm, rfl⟩

theorem Subschema.moved {inherited : String} {pointer : Pointer} {node : Json} {child : Site}
    (step : Subschema walker resolver ⟨inherited, pointer, node⟩ child) (other : Pointer) :
    ∃ place,
      Subschema walker resolver ⟨inherited, other, node⟩ { child with pointer := place } := by
  cases step with
  | value here entry role =>
    have moved := Subschema.value (Context.of_moved here rfl other) entry role
    exact ⟨_, moved⟩
  | element here entry role item =>
    have moved := Subschema.element (Context.of_moved here rfl other) entry role item
    exact ⟨_, moved⟩
  | member here entry role inner =>
    have moved := Subschema.member (Context.of_moved here rfl other) entry role inner
    exact ⟨_, moved⟩

theorem Refers.moved {inherited : String} {pointer : Pointer} {node : Json}
    (refers : Refers walker resolver ⟨inherited, pointer, node⟩ reference) (other : Pointer) :
    Refers walker resolver ⟨inherited, other, node⟩ reference := by
  obtain ⟨inner, path, entry⟩ := refers
  -- The path is followed from its start, as each step moves what comes after it.
  generalize start : (⟨inherited, pointer, node⟩ : Site) = site at path
  induction path using Relation.ReflTransGen.head_induction_on generalizing inherited pointer node
      other with
  | refl =>
    subst start
    exact ⟨_, .refl, entry⟩
  | @head site child step _ ih =>
    subst start
    obtain ⟨place, moved⟩ := step.moved other
    exact (ih place rfl).inside moved

end Refers

theorem Alike.reference {vocabularies : Vocabularies} {members others : Members}
    (alike : Alike vocabularies members others) {reference : Json}
    (entry : ("$ref", reference) ∈ others) : ("$ref", reference) ∈ members := by
  obtain ⟨⟨name, value⟩, listed, rfl, same⟩ := exists_of_forall₂ alike entry
  have none_held := Keyword.holds_none vocabularies
    (by decide +kernel : ∀ keyword ∈ Keyword.all, keyword.name = "$ref" →
      keyword.role.holdsSubschemas = false)
  have unchanged := same none_held
  dsimp only at unchanged
  rwa [unchanged] at listed

namespace Fresh

variable {rules : List Rule} {resolver : Resolver} {events : List Event} {reference : Json}
  (apply : ∀ rule ∈ rules, ∀ node context, rule.condition node context = true →
    ∀ inherited pointer,
      Refers Keyword.find? resolver ⟨inherited, pointer, rule.transform node⟩ reference →
        Refers Keyword.find? resolver ⟨inherited, pointer, node⟩ reference)

include apply

/-- A visit brings no reference in if no rule does. -/
theorem visit_refers {steps : Nat} {inherited : String} {pointer : Pointer} {node result : Json}
    (h : (visit rules Keyword.find? resolver steps inherited pointer node).Gives events result)
    (refers : Refers Keyword.find? resolver ⟨inherited, pointer, result⟩ reference) :
    Refers Keyword.find? resolver ⟨inherited, pointer, node⟩ reference := by
  induction steps generalizing inherited pointer node result with
  | zero => cases h.1
  | succ steps ih =>
    obtain ⟨fewer, context, settled, same, first, members, inside⟩ := visit_subschema h
    cases same
    have settles := settle_gives
      (fun middle => Refers Keyword.find? resolver ⟨inherited, pointer, middle⟩ reference →
        Refers Keyword.find? resolver ⟨inherited, pointer, node⟩ reference)
      (fun rule listed middle context _ condition _ before after =>
        before (apply rule listed middle context condition inherited pointer after)) first id
    apply settles.2
    rcases refers_iff.mp refers with entry | ⟨child, step, refers⟩
    · apply refers_iff.mpr
      rcases members with rfl | ⟨members, results, rfl, rfl, alike⟩
      · exact .inl entry
      · exact .inl (alike.reference entry)
    · obtain ⟨before, step, visited⟩ := inside child step
      exact (ih visited refers).inside step

theorem runPasses_refers {dialect : String} {steps number applied : Nat} {document result : Json}
    (h : (runPasses rules Keyword.find? resolver dialect steps number applied document).Gives events
      result)
    (refers : Refers Keyword.find? resolver ⟨dialect, .root, result⟩ reference) :
    Refers Keyword.find? resolver ⟨dialect, .root, document⟩ reference := by
  have kept := runPasses_gives
    (fun middle => Refers Keyword.find? resolver ⟨dialect, .root, middle⟩ reference →
      Refers Keyword.find? resolver ⟨dialect, .root, document⟩ reference)
    (fun _ _ _ visited before after => before (visit_refers apply visited after)) h id
  exact kept refers

end Fresh

end SchemaPack
