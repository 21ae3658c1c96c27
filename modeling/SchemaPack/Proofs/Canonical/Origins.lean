import SchemaPack.Proofs.Canonical.Collapse
import SchemaPack.Proofs.Canonical.Wrapper
import SchemaPack.Proofs.Rules.Parts
import SchemaPack.Proofs.Schema.Reference

namespace SchemaPack

/-- A member that a node has, or one that brings in no reference: neither by its name nor in
    subschemas. -/
inductive Json.Derived (node : Json) : String → Json → Prop
  | kept {name : String} {value : Json} (entry : (name, value) ∈ node.entries) :
      Derived node name value
  | plain {name : String} {value : Json} (plain : name ∈ Keyword.plain) : Derived node name value
  | properties : Derived node "properties" .emptyObject
  | fewer {name : String} {items results : List Json} (other : name ≠ "$ref")
      (entry : (name, .array items) ∈ node.entries) (fewer : results ⊆ items) :
      Derived node name (.array results)

def Json.DerivesFrom (result node : Json) : Prop :=
  ∀ name value, (name, value) ∈ result.entries → node.Derived name value

theorem Json.derivesFrom_self (node : Json) : node.DerivesFrom node := fun _ _ entry => .kept entry

namespace Json.DerivesFrom

variable {result node : Json}

theorem erase (derives : result.DerivesFrom node) (name : String) :
    (result.erase name).DerivesFrom node :=
  fun other value entry => derives other value (mem_entries_erase.mp entry).1

theorem eraseAll (derives : result.DerivesFrom node) (names : List String) :
    (result.eraseAll names).DerivesFrom node :=
  fun other value entry => derives other value (mem_entries_eraseAll.mp entry).1

theorem insert (derives : result.DerivesFrom node) {name : String} {value : Json}
    (derived : node.Derived name value) : (result.insert name value).DerivesFrom node := by
  intro other held entry
  rcases mem_entries_insert entry with inside | same
  · exact derives other held inside
  · cases same
    exact derived

end Json.DerivesFrom

/-- A rule that adds nothing but plain keywords and empty `properties` to a node. -/
def Rule.Derives (rule : Rule) : Prop := ∀ node, (rule.transform node).DerivesFrom node

open Json (derivesFrom_self)

namespace Redundancy

theorem rules_derive : ∀ rule ∈ rules, rule.Derives := by
  have erases : ∀ names : List String, ∀ node : Json, (node.eraseAll names).DerivesFrom node :=
    fun names node => (derivesFrom_self node).eraseAll names
  have erases_one : ∀ name node, (Json.erase node name).DerivesFrom node :=
    fun name node => (derivesFrom_self node).erase name
  have tighter : ∀ name inclusive exclusive ordering,
      (tighterBound name inclusive exclusive ordering).Derives := by
    intro name inclusive exclusive ordering node
    simp only [tighterBound]
    split
    · exact erases_one _ node
    · exact derivesFrom_self node
  simp only [rules, List.forall_mem_cons]
  exact ⟨erases_one _, erases_one _, erases_one _, erases_one _, erases_one _, erases_one _,
    erases _, erases_one _, erases_one _, tighter _ _ _ _, tighter _ _ _ _, erases_one _,
    erases_one _, fun node => erases (idleBesideEnum node) node, List.forall_mem_nil _⟩

end Redundancy

namespace Spelling

theorem enumOfConst_derives (node : Json) : (enumOfConst node).DerivesFrom node := by
  unfold enumOfConst
  split
  · exact ((derivesFrom_self node).erase _).insert (.plain (by decide))
  · exact derivesFrom_self node

theorem inclusiveBound_derives {name exclusive inclusive : String} {rounding : Rounding}
    {step : Int} (plain : inclusive ∈ Keyword.plain) :
    (inclusiveBound name exclusive inclusive rounding step).Derives := by
  intro node
  simp only [inclusiveBound]
  split
  · exact ((derivesFrom_self node).erase _).insert (.plain plain)
  · exact derivesFrom_self node

theorem rules_derive : ∀ rule ∈ rules, rule ≠ typeUnion → rule.Derives := by
  simp only [rules, List.forall_mem_cons]
  refine ⟨?_, fun _ => enumOfConst_derives, ?_, ?_, fun same => (same rfl).elim,
    fun _ => inclusiveBound_derives (by decide), fun _ => inclusiveBound_derives (by decide),
    List.forall_mem_nil _⟩
  · intro _ node name value entry
    cases entry
  · exact fun _ node => ((derivesFrom_self node).erase _).insert (.plain (by decide))
  · exact fun _ node => ((derivesFrom_self node).erase _).insert (.plain (by decide))

theorem branch_derives (members : Members) (type : Json) :
    (branch members type).DerivesFrom (.object members) := by
  intro name value entry
  rcases List.mem_cons.mp entry with same | moved
  · cases same
    exact .plain (by decide)
  · exact .kept (List.mem_filter.mp moved).1

end Spelling

namespace Collapse

theorem collapse_derives (node : Json) (names : List String) {name : String} (value : Json)
    (plain : name ∈ Keyword.plain) : ((node.eraseAll names).insert name value).DerivesFrom node :=
  ((derivesFrom_self node).eraseAll names).insert (.plain plain)

theorem duplicates_derives {name keyword vocabulary : String} (other : keyword ≠ "$ref") :
    (duplicates name keyword vocabulary).Derives := by
  intro node
  rcases duplicates_transform name keyword vocabulary node with same | ⟨_, _, found, ran, same⟩
  · rw [same]
    exact derivesFrom_self node
  · have entry := Json.mem_entries_of_get? (Json.get?_of_arrayAt? found)
    rw [same]
    exact (derivesFrom_self node).insert (.fewer other entry fun _ => Json.mem_of_mem_sortUnique ran)

theorem integralBound_derives {name keyword : String} {rounding : Rounding}
    (plain : keyword ∈ Keyword.plain) : (integralBound name keyword rounding).Derives := by
  intro node
  simp only [integralBound]
  split
  · exact (derivesFrom_self node).insert (.plain plain)
  · exact derivesFrom_self node

theorem rules_derive : ∀ rule ∈ rules, rule.Derives := by
  have singleType : singleType.Derives := by
    intro node
    simp only [Collapse.singleType]
    split
    · exact (derivesFrom_self node).insert (.plain (by decide))
    · exact derivesFrom_self node
  have equalBounds : equalBounds.Derives := by
    intro node
    simp only [Collapse.equalBounds]
    split
    · exact collapse_derives node _ _ (by decide)
    · exact derivesFrom_self node
  have requiredDependencies : requiredDependencies.Derives := by
    intro node
    simp only [Collapse.requiredDependencies]
    split
    · exact ((derivesFrom_self node).insert (.plain (by decide))).insert (.plain (by decide))
    · exact derivesFrom_self node
  have requiredCount : requiredCount.Derives := by
    intro node
    simp only [Collapse.requiredCount]
    split
    · exact (derivesFrom_self node).insert (.plain (by decide))
    · exact derivesFrom_self node
  simp only [rules, List.forall_mem_cons]
  exact ⟨singleType, Spelling.enumOfConst_derives, equalBounds,
    fun node => collapse_derives node _ _ (by decide),
    fun node => collapse_derives node _ _ (by decide),
    fun node => collapse_derives node _ _ (by decide), requiredDependencies, requiredCount,
    duplicates_derives (by decide), duplicates_derives (by decide), duplicates_derives (by decide),
    duplicates_derives (by decide), integralBound_derives (by decide),
    integralBound_derives (by decide), List.forall_mem_nil _⟩

end Collapse

theorem Pruning.rules_derive : ∀ rule ∈ rules, rule.Derives := by
  intro rule listed node
  obtain ⟨_, _, listed⟩ := List.mem_flatMap.mp listed
  obtain ⟨_, _, rfl⟩ := List.mem_map.mp listed
  exact (derivesFrom_self node).eraseAll _

theorem Defaults.rules_derive : ∀ rule ∈ rules, rule.Derives := by
  have plain : ∀ name type vocabulary keyword value, keyword ∈ Keyword.plain →
      (default name type vocabulary keyword value).Derives :=
    fun _ _ _ _ _ plain node => (derivesFrom_self node).insert (.plain plain)
  simp only [rules, List.forall_mem_cons]
  exact ⟨fun node => (derivesFrom_self node).insert (.plain (by decide)),
    plain _ _ _ _ _ (by decide), plain _ _ _ _ _ (by decide), plain _ _ _ _ _ (by decide),
    plain _ _ _ _ _ (by decide), plain _ _ _ _ _ (by decide),
    fun node => (derivesFrom_self node).insert .properties, List.forall_mem_nil _⟩

theorem canonicalRules_derive : ∀ rule ∈ canonicalRules, rule ≠ Spelling.typeUnion →
    rule.Derives := by
  intro rule listed other
  simp only [canonicalRules, List.mem_append] at listed
  rcases listed with (((listed | listed) | listed) | listed) | listed
  · exact Redundancy.rules_derive rule listed
  · exact Spelling.rules_derive rule listed other
  · exact Collapse.rules_derive rule listed
  · exact Pruning.rules_derive rule listed
  · exact Defaults.rules_derive rule listed

section Refers

variable {resolver : Resolver} {reference : Json}

theorem Keyword.not_plain {vocabularies : Vocabularies} {name : String} {role : Role}
    (known : (Keyword.find? vocabularies name).map Keyword.role = some role)
    (holds : role.holdsSubschemas = true) : name ∉ Keyword.plain := by
  intro plain
  have none_held := Keyword.plain_holds_none vocabularies plain
  simp [known, holds] at none_held

theorem Json.Derived.of_reference {node : Json} {name : String}
    (derived : node.Derived name reference) (named : name = "$ref") :
    (name, reference) ∈ node.entries := by
  cases derived with
  | kept entry => exact entry
  | plain plain => exact absurd (named ▸ plain) (by decide)
  | properties => exact absurd named (by decide)
  | fewer other => exact (other named).elim

theorem Refers.of_derives {result node : Json} {inherited outer : String}
    {pointer place : Pointer} (derives : result.DerivesFrom node)
    (same : Dialect.ofNode inherited node = Dialect.ofNode outer result)
    (refers : Refers Keyword.find? resolver ⟨outer, place, result⟩ reference) :
    Refers Keyword.find? resolver ⟨inherited, pointer, node⟩ reference := by
  rcases refers_iff.mp refers with entry | ⟨child, step, refers⟩
  · exact refers_iff.mpr (.inl ((derives _ _ entry).of_reference rfl))
  · cases step with
    | value here entry role =>
      have there := Context.of_moved here same pointer
      cases derives _ _ entry with
      | kept entry =>
        obtain ⟨members, rfl⟩ := Json.eq_object_of_entry entry
        exact (refers.moved _).inside (.value there entry role)
      | plain plain => exact (Keyword.not_plain role rfl plain).elim
      | properties => exact (not_refers_of_entries rfl refers).elim
      | fewer => exact (not_refers_of_entries rfl refers).elim
    | element here entry role item =>
      have there := Context.of_moved here same pointer
      cases derives _ _ entry with
      | kept entry =>
        obtain ⟨members, rfl⟩ := Json.eq_object_of_entry entry
        exact (refers.moved _).inside (.element there entry role item)
      | plain plain => exact (Keyword.not_plain role rfl plain).elim
      | fewer _ entry fewer =>
        obtain ⟨index, item⟩ := List.mem_iff_getElem?.mp (fewer (List.mem_of_getElem? item))
        obtain ⟨members, rfl⟩ := Json.eq_object_of_entry entry
        exact (refers.moved _).inside (.element there entry role item)
    | member here entry role inner =>
      have there := Context.of_moved here same pointer
      cases derives _ _ entry with
      | kept entry =>
        obtain ⟨members, rfl⟩ := Json.eq_object_of_entry entry
        exact (refers.moved _).inside (.member there entry role inner)
      | plain plain => exact (Keyword.not_plain role rfl plain).elim
      | properties => cases inner

theorem Spelling.branch_ofNode (dialect : String) (members : Members) (type : Json) :
    Dialect.ofNode dialect (branch members type) = dialect := by
  have none : (branch members type).get? "$schema" = none := by
    have other : "type" ≠ "$schema" := by decide
    rw [branch, Json.get?_object, Members.get?_cons, if_neg other]
    exact @Members.get?_filter_none members
      (fun name => !wrapperKeywords.contains name && name != "type") _ (by decide)
  rw [Dialect.ofNode, Dialect.declared?, none]
  rfl

theorem Spelling.mem_wrapped {members : Members} {branches : List Json} {name : String}
    {value : Json} (entry : (name, value) ∈ (wrapped members branches).entries) :
    name ∈ wrapperKeywords ∧ (name, value) ∈ members ∨
      name = "anyOf" ∧ value = .array branches := by
  rcases List.mem_append.mp entry with stays | added
  · obtain ⟨listed, stays⟩ := List.mem_filter.mp stays
    exact .inl ⟨List.contains_iff_mem.mp stays, listed⟩
  · cases List.mem_singleton.mp added
    exact .inr ⟨rfl, rfl⟩

theorem Spelling.refers_of_wrapped {members : Members} {types : List Json}
    (found : (Json.object members).arrayAt? "type" = some types) {inherited : String}
    {pointer : Pointer}
    (refers : Refers Keyword.find? resolver
      ⟨inherited, pointer, wrapped members (types.map (branch members))⟩ reference) :
    Refers Keyword.find? resolver ⟨inherited, pointer, .object members⟩ reference := by
  have wrapper : "$schema" ∈ wrapperKeywords := by decide
  have kept := splitTypes_get? (.object members) wrapper
  rw [splitTypes_eq found] at kept
  have same : Dialect.ofNode inherited (.object members) =
      Dialect.ofNode inherited (wrapped members (types.map (branch members))) := by
    rw [Dialect.ofNode, Dialect.ofNode, Dialect.declared?, Dialect.declared?, kept]
  rcases refers_iff.mp refers with entry | ⟨child, step, refers⟩
  · rcases mem_wrapped entry with ⟨wrapper, _⟩ | ⟨named, _⟩
    · exact absurd wrapper (by decide)
    · exact absurd named (by decide)
  · generalize shape : wrapped members (types.map (branch members)) = result at step
    cases step with
    | value here entry role =>
      cases shape
      have there := Context.of_moved here same pointer
      rcases mem_wrapped entry with ⟨_, listed⟩ | ⟨_, rfl⟩
      · exact refers.inside (.value there listed role)
      · exact (not_refers_of_entries rfl refers).elim
    | element here entry role item =>
      cases shape
      have there := Context.of_moved here same pointer
      rcases mem_wrapped entry with ⟨_, listed⟩ | ⟨_, branches⟩
      · exact refers.inside (.element there listed role item)
      · cases branches
        rw [List.getElem?_map] at item
        obtain ⟨type, _, rfl⟩ := Option.map_eq_some_iff.mp item
        refine refers.of_derives (branch_derives members type) ?_
        rw [branch_ofNode, same]
        exact (Context.of_dialect here).symm
    | member here entry role inner =>
      cases shape
      have there := Context.of_moved here same pointer
      rcases mem_wrapped entry with ⟨_, listed⟩ | ⟨_, array⟩
      · exact refers.inside (.member there listed role inner)
      · cases array

theorem Spelling.refers_of_splitTypes {node : Json} {inherited : String} {pointer : Pointer}
    (refers : Refers Keyword.find? resolver ⟨inherited, pointer, splitTypes node⟩ reference) :
    Refers Keyword.find? resolver ⟨inherited, pointer, node⟩ reference := by
  cases node with
  | object members =>
    cases found : (Json.object members).arrayAt? "type" with
    | none =>
      simp only [splitTypes, found] at refers
      exact refers
    | some types =>
      rw [splitTypes_eq found] at refers
      exact refers_of_wrapped found refers
  | null | bool | number | string | array => exact refers

theorem canonicalRules_refers {rule : Rule} (listed : rule ∈ canonicalRules) {node : Json}
    {context : Context} (condition : rule.condition node context = true) {inherited : String}
    {pointer : Pointer}
    (refers : Refers Keyword.find? resolver ⟨inherited, pointer, rule.transform node⟩ reference) :
    Refers Keyword.find? resolver ⟨inherited, pointer, node⟩ reference := by
  by_cases splits : rule = Spelling.typeUnion
  · subst splits
    exact Spelling.refers_of_splitTypes refers
  · have wrapper : "$schema" ∈ Spelling.wrapperKeywords := by decide
    have kept := canonicalRules_keep_wrapper wrapper rule listed node context condition
    have same : Dialect.ofNode inherited node = Dialect.ofNode inherited (rule.transform node) := by
      rw [Dialect.ofNode, Dialect.ofNode, Dialect.declared?, Dialect.declared?, kept]
    exact refers.of_derives (canonicalRules_derive rule listed splits node) same

/-- Every reference in a canonical schema comes from the schema it was made from. -/
theorem canonicalize_refers {resolver : Resolver} {default : Option String}
    {document result : Json} {limit : Nat} {dialect : String}
    (root : Dialect.ofDocument document default = .ok dialect)
    (h : (canonicalize resolver default document limit).result = .ok result)
    (refers : Refers Keyword.find? (Encoding.resolver resolver) ⟨dialect, .root, result⟩
      reference) :
    Refers Keyword.find? (Encoding.resolver resolver) ⟨dialect, .root, document⟩ reference := by
  rw [canonicalize, saturate_eq, root, Traced.ofExcept_ok_bind] at h
  refine Fresh.runPasses_refers ?_ (.of_result h) refers
  exact fun rule listed node context condition _ _ => canonicalRules_refers listed condition

end Refers

end SchemaPack
