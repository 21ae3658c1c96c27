import Mathlib.Data.List.Forall2
import SchemaPack.Proofs.Rules.Memory

namespace SchemaPack

def Role.holdsSubschemas : Role → Bool
  | .subschema | .subschemaList | .subschemaMap => true
  | _ => false

/-- The same keywords in the same order. Values may differ where they hold subschemas. -/
def Alike (vocabularies : Vocabularies) (members others : Members) : Prop :=
  List.Forall₂
    (fun entry other => entry.1 = other.1 ∧
      (((Keyword.find? vocabularies entry.1).map Keyword.role).all (!·.holdsSubschemas) = true →
        entry.2 = other.2))
    members others

theorem Alike.names {vocabularies : Vocabularies} {members others : Members}
    (alike : Alike vocabularies members others) : members.map (·.1) = others.map (·.1) := by
  induction alike with
  | nil => rfl
  | cons same _ ih => simp only [List.map_cons, same.1, ih]

/-- The keywords that rules read or write values of and that hold no subschemas, and those of
    encodings, which hold none either. -/
def Keyword.plain : List String := [
  "$schema", "type", "enum", "const", "minimum", "maximum", "exclusiveMinimum",
  "exclusiveMaximum", "multipleOf", "minLength", "maxLength", "minItems", "maxItems",
  "minProperties", "maxProperties", "required", "dependentRequired", "name", "options"]

theorem Keyword.holds_none (vocabularies : Vocabularies) {name : String}
    (table : ∀ keyword ∈ Keyword.all, keyword.name = name →
      keyword.role.holdsSubschemas = false) :
    ((Keyword.find? vocabularies name).map Keyword.role).all (!·.holdsSubschemas) = true := by
  cases found : Keyword.find? vocabularies name with
  | none => rfl
  | some keyword =>
    have listed := List.mem_of_find?_eq_some found
    have named := List.find?_some found
    simp only [Bool.and_eq_true, beq_iff_eq] at named
    simp [table keyword listed named.1]

theorem Keyword.role_of_plain : ∀ keyword ∈ Keyword.all, keyword.name ∈ Keyword.plain →
    keyword.role.holdsSubschemas = false := by
  decide +kernel

theorem Keyword.plain_holds_none (vocabularies : Vocabularies) {name : String}
    (plain : name ∈ Keyword.plain) :
    ((Keyword.find? vocabularies name).map Keyword.role).all (!·.holdsSubschemas) = true := by
  apply Keyword.holds_none
  rintro keyword listed rfl
  exact Keyword.role_of_plain keyword listed plain

theorem Alike.get?_of_holds_none {vocabularies : Vocabularies} {members others : Members}
    {name : String} (alike : Alike vocabularies members others)
    (role : ((Keyword.find? vocabularies name).map Keyword.role).all (!·.holdsSubschemas) = true) :
    Members.get? members name = Members.get? others name := by
  unfold Members.get?
  induction alike with
  | nil => rfl
  | @cons entry other _ _ same _ ih =>
    obtain ⟨key, value⟩ := entry
    obtain ⟨otherKey, otherValue⟩ := other
    obtain ⟨names, values⟩ := same
    dsimp only at names values
    subst names
    rw [List.lookup_cons, List.lookup_cons]
    by_cases here : name = key
    · subst here
      simp only [beq_self_eq_true, values role]
    · rw [beq_eq_false_iff_ne.mpr here]
      exact ih

theorem Alike.get? {vocabularies : Vocabularies} {members others : Members} {name : String}
    (alike : Alike vocabularies members others) (plain : name ∈ Keyword.plain) :
    Members.get? members name = Members.get? others name :=
  alike.get?_of_holds_none (Keyword.plain_holds_none vocabularies plain)

theorem Alike.declared? {vocabularies : Vocabularies} {members others : Members}
    (alike : Alike vocabularies members others) :
    Dialect.declared? (.object others) = Dialect.declared? (.object members) :=
  congrArg (·.bind (·.string?)) (alike.get? (by decide)).symm

theorem Context.of_alike {resolver : Resolver} {inherited : String} {pointer : Pointer}
    {members others : Members} {context : Context}
    (here : Context.of resolver inherited pointer (.object members) = .ok context)
    (alike : Alike context.vocabularies members others) :
    Context.of resolver inherited pointer (.object others) = .ok context := by
  rw [Context.of_eq_ok_iff] at here ⊢
  rwa [Dialect.ofNode, alike.declared?]

theorem Alike.contains {vocabularies : Vocabularies} {members others : Members}
    (alike : Alike vocabularies members others) (name : String) :
    (Json.object others).contains name = (Json.object members).contains name := by
  have by_names : ∀ members : Members, (Json.object members).contains name =
      (members.map (·.1)).any (· == name) := by
    intro members
    rw [List.any_map]
    rfl
  rw [by_names, by_names, alike.names]

theorem Alike.eq {vocabularies : Vocabularies} {members others : Members}
    (alike : Alike vocabularies members others)
    (plain : ∀ entry ∈ members, entry.1 ∈ Keyword.plain) : members = others := by
  induction alike with
  | nil => rfl
  | @cons entry other _ _ same _ ih =>
    rw [List.forall_mem_cons] at plain
    have values := same.2 (Keyword.plain_holds_none vocabularies plain.1)
    rw [ih plain.2, Prod.ext same.1 values]

namespace Fresh

variable {rules : List Rule} {resolver : Resolver}

theorem visitKeyword_eq_pure {visit : Pointer → Json → Traced Json} {vocabularies : Vocabularies}
    {pointer : Pointer} {name : String} {value : Json}
    (none_held : ((Keyword.find? vocabularies name).map Keyword.role).all (!·.holdsSubschemas) =
      true) :
    visitKeyword Keyword.find? visit vocabularies pointer name value = pure value := by
  unfold visitKeyword
  generalize (Keyword.find? vocabularies name).map Keyword.role = role at none_held ⊢
  cases role with
  | none => rfl
  | some role =>
    cases role with
    | subschema | subschemaList | subschemaMap => cases none_held
    | identity | reference | comment | assertion | descriptive => rfl

theorem visitKeywords_eq_pure_of_none {visit : Pointer → Json → Traced Json}
    {vocabularies : Vocabularies} {pointer : Pointer} {members : Members}
    (none_held : ∀ entry ∈ members,
      ((Keyword.find? vocabularies entry.1).map Keyword.role).all (!·.holdsSubschemas) = true) :
    visitKeywords Keyword.find? visit vocabularies pointer members = pure members := by
  induction members with
  | nil => rfl
  | cons entry rest ih =>
    rw [List.forall_mem_cons] at none_held
    rw [visitKeywords, visitKeyword_eq_pure none_held.1, pure_bind, ih none_held.2, pure_bind]

theorem visitKeywords_eq_pure {visit : Pointer → Json → Traced Json}
    {vocabularies : Vocabularies} {pointer : Pointer} {members : Members}
    (plain : ∀ entry ∈ members, entry.1 ∈ Keyword.plain) :
    visitKeywords Keyword.find? visit vocabularies pointer members = pure members :=
  visitKeywords_eq_pure_of_none fun entry listed =>
    Keyword.plain_holds_none vocabularies (plain entry listed)

theorem visitKeywords_alike {visit : Pointer → Json → Traced Json} {vocabularies : Vocabularies}
    {pointer : Pointer} {members results : Members}
    (h : (visitKeywords Keyword.find? visit vocabularies pointer members).result = .ok results) :
    Alike vocabularies members results := by
  induction members generalizing results with
  | nil =>
    cases h
    exact .nil
  | cons entry rest ih =>
    obtain ⟨name, value⟩ := entry
    rw [visitKeywords] at h
    obtain ⟨result, first, later⟩ := Traced.bind_result_ok h
    obtain ⟨others, second, last⟩ := Traced.bind_result_ok later
    cases last
    refine .cons ⟨rfl, ?_⟩ (ih second)
    intro none_held
    rw [visitKeyword_eq_pure none_held] at first
    exact Except.ok.inj first

/-- What holds of a node after any rule that is applied to it, in the context it has then, and
    whatever becomes of the subschemas under its keywords. -/
structure Stable (rules : List Rule) (resolver : Resolver) (inherited : String)
    (pointer : Pointer) (property : Json → Prop) : Prop where
  apply : ∀ rule ∈ rules, ∀ node context,
    Context.of resolver inherited pointer node = .ok context → rule.condition node context = true →
      property node → property (rule.transform node)
  inside : ∀ members results context,
    Context.of resolver inherited pointer (.object members) = .ok context →
      Alike context.vocabularies members results → property (.object members) →
        property (.object results)

theorem settle_stable {inherited : String} {pointer : Pointer} {property : Json → Prop}
    (stable : Stable rules resolver inherited pointer property) {steps : Nat} {node : Json}
    {context : Context} {settled : Json}
    (h : (settle rules resolver inherited pointer steps node).result = .ok (context, settled))
    (holds : property node) :
    Context.of resolver inherited pointer settled = .ok context ∧ property settled := by
  induction steps generalizing node with
  | zero => cases h
  | succ steps ih =>
    obtain ⟨found, here, ⟨_, rfl, rfl⟩ | ⟨rule, matched, later⟩⟩ := settle_succ h
    · exact ⟨here, holds⟩
    · have listed := List.mem_of_find?_eq_some matched
      have condition := List.find?_some matched
      exact ih later (stable.apply rule listed node found here condition holds)

theorem visit_stable {inherited : String} {pointer : Pointer} {property : Json → Prop}
    (stable : Stable rules resolver inherited pointer property) {steps : Nat} {node result : Json}
    (h : (visit rules Keyword.find? resolver steps inherited pointer node).result = .ok result)
    (holds : property node) : property result := by
  cases steps with
  | zero => cases h
  | succ steps =>
    rw [visit] at h
    obtain ⟨⟨context, settled⟩, first, later⟩ := Traced.bind_result_ok h
    obtain ⟨here, holds⟩ := settle_stable stable first holds
    cases settled with
    | object members =>
      dsimp only at later
      obtain ⟨results, second, last⟩ := Traced.bind_result_ok later
      cases last
      exact stable.inside members results context here (visitKeywords_alike second) holds
    | null | bool | number | string | array =>
      cases later
      exact holds

theorem runPasses_stable {dialect : String} {property : Json → Prop}
    (stable : Stable rules resolver dialect .root property) {steps number applied : Nat}
    {document result : Json}
    (h : (runPasses rules Keyword.find? resolver dialect steps number applied document).result =
      .ok result)
    (holds : property document) : property result := by
  induction steps generalizing number applied document with
  | zero => cases h
  | succ steps ih =>
    rw [runPasses] at h
    obtain ⟨passed, first, later⟩ := Traced.bind_result_ok h
    obtain ⟨_, _, last⟩ := Traced.bind_result_ok later
    have holds := visit_stable stable first holds
    split at last
    · exact ih last holds
    · obtain ⟨_, _, last⟩ := Traced.bind_result_ok last
      cases last
      exact holds

end Fresh

/-- A property of the root that no rule and nothing inside the root takes away holds after a run. -/
theorem saturate_stable {rules : List Rule} {resolver : Resolver} {default : Option String}
    {document result : Json} {limit : Nat} {dialect : String} {property : Json → Prop}
    (root : Dialect.ofDocument document default = .ok dialect)
    (stable : Fresh.Stable rules resolver dialect .root property)
    (h : (saturate rules resolver default document limit).result = .ok result)
    (holds : property document) : property result := by
  rw [saturate_eq, root, Traced.ofExcept_ok_bind] at h
  exact Fresh.runPasses_stable stable h holds

end SchemaPack
