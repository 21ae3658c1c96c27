import SchemaPack.Proofs.Json.Replacement
import SchemaPack.Proofs.Rules.FixedPoint
import SchemaPack.Proofs.Rules.Invariant

namespace SchemaPack

open Relation (ReflTransGen)

/-- A walker that takes the declaration of a dialect for no subschema. -/
def Walker.Overlooks (walker : Walker) : Prop :=
  ∀ vocabularies, ((walker vocabularies "$schema").map Keyword.role).all (!·.holdsSubschemas) = true

theorem Keyword.find?_overlooks : Walker.Overlooks Keyword.find? :=
  fun vocabularies => plain_holds_none vocabularies (by decide)

theorem Walker.Overlooks.ne {walker : Walker} (overlooks : walker.Overlooks)
    {vocabularies : Vocabularies} {name : String} {role : Role}
    (named : (walker vocabularies name).map Keyword.role = some role)
    (holds : role.holdsSubschemas = true) : name ≠ "$schema" := by
  rintro rfl
  have none := overlooks vocabularies
  rw [named, Option.all_some, holds] at none
  cases none

theorem Context.of_insert (resolver : Resolver) (inherited : String) (pointer : Pointer)
    (members : Members) {name : String} (value : Json) (other : name ≠ "$schema") :
    Context.of resolver inherited pointer (.object (members.insert name value)) =
      Context.of resolver inherited pointer (.object members) := by
  have declared : Dialect.declared? (.object (members.insert name value)) =
      Dialect.declared? (.object members) :=
    congrArg (·.bind (·.string?)) (Members.get?_insert_ne members value other)
  rw [Context.of, Context.of, Dialect.ofNode, Dialect.ofNode, declared]

namespace Subschema

variable {walker : Walker} {resolver : Resolver}

/-- A path leads from a site to one below it, and still does when another value is put at its
    end. -/
structure Descent (walker : Walker) (reaches : Site → Site → Prop) (site below : Site)
    (path : List String) : Prop where
  lies : below.pointer.tokens = site.pointer.tokens ++ path
  selected : (Pointer.mk path).select? site.node = some below.node
  again : walker.Overlooks → ∀ value changed,
    Pointer.replaceAt? path value site.node = some changed →
      reaches ⟨site.inherited, site.pointer, changed⟩ ⟨below.inherited, below.pointer, value⟩

theorem exists_descent {site child : Site} (step : Subschema walker resolver site child)
    (distinct : site.node.Distinct) :
    ∃ path, Descent walker (Subschema walker resolver) site child path := by
  cases step with
  | @value _ _ members _ name _ here entry role =>
    have found := (Members.mem_iff_get? distinct.1).mp entry
    refine ⟨[name], rfl, ?_, ?_⟩
    · rw [Pointer.select?_single]
      exact found
    · intro overlooks value changed replaced
      obtain ⟨_, inner, _, below, rfl⟩ := Pointer.replaceAt?_cons replaced
      cases below
      rw [← Context.of_insert resolver _ _ members value (overlooks.ne role rfl)] at here
      exact .value here (Members.mem_of_get? (Members.get?_insert_self members name value)) role
  | @element _ _ members _ name items index _ here entry role item =>
    have found := (Members.mem_iff_get? distinct.1).mp entry
    refine ⟨[name, toString index], ?_, ?_, ?_⟩
    · simp [Pointer.item, Pointer.child]
    · have leads : Pointer.step? (.object members) name = some (.array items) := found
      rw [Pointer.select?_cons, leads, Option.bind_some, Pointer.select?_single,
        Pointer.step?_item, item]
    · intro overlooks value changed replaced
      obtain ⟨_, inner, leads, below, rfl⟩ := Pointer.replaceAt?_cons replaced
      cases Option.some.inj (leads.symm.trans found)
      obtain ⟨_, inmost, _, last, rfl⟩ := Pointer.replaceAt?_cons below
      cases last
      rw [Pointer.put_item]
      rw [← Context.of_insert resolver _ _ members (.array (items.set index value))
        (overlooks.ne role rfl)] at here
      have bound := (List.getElem?_eq_some_iff.mp item).1
      exact .element here (Members.mem_of_get? (Members.get?_insert_self members name _)) role
        (List.getElem?_set_self bound)
  | @member _ _ members _ name entries key _ here entry role inner =>
    have found := (Members.mem_iff_get? distinct.1).mp entry
    have inside : (Json.object entries).Distinct := distinct.get? found
    have leads : Pointer.step? (.object members) name = some (.object entries) := found
    have below : Pointer.step? (.object entries) key = some _ :=
      (Members.mem_iff_get? inside.1).mp inner
    refine ⟨[name, key], ?_, ?_, ?_⟩
    · simp [Pointer.child]
    · rw [Pointer.select?_cons, leads, Option.bind_some, Pointer.select?_single, below]
    · intro overlooks value changed replaced
      obtain ⟨_, _, there, below, rfl⟩ := Pointer.replaceAt?_cons replaced
      cases Option.some.inj (there.symm.trans leads)
      obtain ⟨_, inmost, _, last, rfl⟩ := Pointer.replaceAt?_cons below
      cases last
      rw [← Context.of_insert resolver _ _ members (.object (entries.insert key value))
        (overlooks.ne role rfl)] at here
      exact .member here (Members.mem_of_get? (Members.get?_insert_self members name _)) role
        (Members.mem_of_get? (Members.get?_insert_self entries key value))

theorem exists_descent_of_reached {site below : Site}
    (reached : ReflTransGen (Subschema walker resolver) site below)
    (distinct : site.node.Distinct) :
    ∃ path, Descent walker (ReflTransGen (Subschema walker resolver)) site below path := by
  induction reached using ReflTransGen.head_induction_on with
  | refl =>
    refine ⟨[], (List.append_nil _).symm, rfl, ?_⟩
    intro _ value changed replaced
    cases replaced
    exact .refl
  | head step _ ih =>
    obtain ⟨first, start⟩ := exists_descent step distinct
    obtain ⟨path, rest⟩ := ih (Pointer.distinct_of_select? distinct start.selected)
    refine ⟨first ++ path, ?_, ?_, ?_⟩
    · rw [rest.lies, start.lies, List.append_assoc]
    · rw [Pointer.select?_append, start.selected, Option.bind_some, rest.selected]
    · intro overlooks value changed replaced
      rw [Pointer.replaceAt?_append, start.selected, Option.bind_some] at replaced
      obtain ⟨inner, there, outer⟩ := Option.bind_eq_some_iff.mp replaced
      exact .head (start.again overlooks inner changed outer)
        (rest.again overlooks value inner there)

theorem select?_of_reached {dialect : String} {document : Json} {site : Site}
    (reached : ReflTransGen (Subschema walker resolver) ⟨dialect, .root, document⟩ site)
    (distinct : document.Distinct) : site.pointer.select? document = some site.node := by
  obtain ⟨path, descent⟩ := exists_descent_of_reached reached distinct
  rw [show site.pointer = ⟨path⟩ from congrArg Pointer.mk descent.lies]
  exact descent.selected

end Subschema

/-- A document in which a value was put where a pointer leads. -/
structure Puts (document : Json) (pointer : Pointer) (value final : Json) : Prop where
  distinct : final.Distinct
  replaced : pointer.replace? value document = some final

namespace Puts

variable {document middle final value other node : Json} {pointer : Pointer} {token : String}

theorem refl (distinct : document.Distinct) (held : pointer.select? document = some value) :
    Puts document pointer value document :=
  ⟨distinct, Pointer.replaceAt?_self distinct held⟩

theorem trans (distinct : document.Distinct) (first : Puts document pointer value middle)
    (second : Puts middle pointer other final) : Puts document pointer other final := by
  refine ⟨second.distinct, ?_⟩
  have last := second.replaced
  unfold Pointer.replace? at last ⊢
  rwa [Pointer.replaceAt?_replaceAt? distinct first.replaced other] at last

theorem held (puts : Puts document pointer value final) : pointer.select? final = some value :=
  Pointer.select?_replaceAt? puts.replaced

theorem outward (puts : Puts document (pointer.child token) value final)
    (held : pointer.select? document = some node) (leads : Pointer.step? node token = some other) :
    Puts document pointer (Pointer.put node token value) final := by
  refine ⟨puts.distinct, ?_⟩
  have replaced := puts.replaced
  have inside : (Pointer.mk pointer.tokens).select? document = some node := held
  rw [Pointer.replace?, Pointer.child, Pointer.replaceAt?_append, inside, Option.bind_some,
    Pointer.replaceAt?, leads] at replaced
  exact replaced

end Puts

section Standing

variable (walker : Walker) (resolver : Resolver) (dialect : String)

/-- A site whose node is in the document at its pointer, and that is reached from the root. -/
structure Stands (document : Json) (site : Site) : Prop where
  distinct : document.Distinct
  held : site.pointer.select? document = some site.node
  reached : walker.Overlooks →
    ReflTransGen (Subschema walker resolver) ⟨dialect, .root, document⟩ site

/-- An object in the document, with a context that is still its own. -/
structure Opens (inherited : String) (context : Context) (document : Json)
    (members : Members) : Prop where
  stands : Stands walker resolver dialect document ⟨inherited, context.pointer, .object members⟩
  known : walker.Overlooks →
    Context.of resolver inherited context.pointer (.object members) = .ok context

end Standing

variable {walker : Walker} {resolver : Resolver} {dialect inherited : String}

namespace Stands

variable {document final node value : Json} {pointer : Pointer}

theorem root (distinct : document.Distinct) :
    Stands walker resolver dialect document ⟨dialect, .root, document⟩ :=
  ⟨distinct, rfl, fun _ => .refl⟩

theorem of_puts (stands : Stands walker resolver dialect document ⟨inherited, pointer, node⟩)
    (puts : Puts document pointer value final) :
    Stands walker resolver dialect final ⟨inherited, pointer, value⟩ := by
  refine ⟨puts.distinct, puts.held, ?_⟩
  intro overlooks
  obtain ⟨path, descent⟩ :=
    Subschema.exists_descent_of_reached (stands.reached overlooks) stands.distinct
  have same : pointer.tokens = path := descent.lies
  exact descent.again overlooks value final (same ▸ puts.replaced)

theorem exists_puts (stands : Stands walker resolver dialect document ⟨inherited, pointer, node⟩)
    (distinct : value.Distinct) : ∃ final, Puts document pointer value final := by
  have held : (Pointer.mk pointer.tokens).select? document = some node := stands.held
  have leads := Pointer.isSome_replaceAt? pointer.tokens value document
  rw [held, Option.isSome_some, Option.isSome_iff_exists] at leads
  obtain ⟨final, replaced⟩ := leads
  exact ⟨final, Pointer.distinct_of_replaceAt? stands.distinct distinct replaced, replaced⟩

theorem distinct_node {site : Site} (stands : Stands walker resolver dialect document site) :
    site.node.Distinct :=
  Pointer.distinct_of_select? stands.distinct stands.held

end Stands

namespace Opens

variable {context : Context} {document final value result : Json} {before after : Members}
  {name : String} {role : Role}

theorem held (opens : Opens walker resolver dialect inherited context document
      (before ++ (name, value) :: after)) :
    (context.pointer.child name).select? document = some value := by
  rw [Pointer.select?_child, opens.stands.held, Option.bind_some]
  exact Members.get?_between opens.stands.distinct_node.1

theorem outward (opens : Opens walker resolver dialect inherited context document
      (before ++ (name, value) :: after))
    (puts : Puts document (context.pointer.child name) result final) :
    Puts document context.pointer (.object (before ++ (name, result) :: after)) final := by
  have names := opens.stands.distinct_node.1
  have whole := puts.outward opens.stands.held (Members.get?_between names)
  rwa [Pointer.put, Members.insert_between result names] at whole

/-- The subschemas under a keyword may change and leave the context of its node what it is. -/
theorem of_puts (opens : Opens walker resolver dialect inherited context document
      (before ++ (name, value) :: after))
    (puts : Puts document (context.pointer.child name) result final)
    (named : (walker context.vocabularies name).map Keyword.role = some role)
    (holds : role.holdsSubschemas = true) :
    Opens walker resolver dialect inherited context final
      (before ++ (name, result) :: after) := by
  refine ⟨opens.stands.of_puts (opens.outward puts), ?_⟩
  intro overlooks
  have same := Context.of_insert resolver inherited context.pointer
    (before ++ (name, value) :: after) result (overlooks.ne named holds)
  rw [Members.insert_between result opens.stands.distinct_node.1] at same
  rw [same, opens.known overlooks]

theorem entry_mem : (name, value) ∈ before ++ (name, value) :: after :=
  List.mem_append_right before List.mem_cons_self

theorem value_stands (opens : Opens walker resolver dialect inherited context document
      (before ++ (name, value) :: after))
    (named : (walker context.vocabularies name).map Keyword.role = some .subschema) :
    Stands walker resolver dialect document
      ⟨context.dialect, context.pointer.child name, value⟩ :=
  ⟨opens.stands.distinct, opens.held, fun overlooks =>
    (opens.stands.reached overlooks).tail (.value (opens.known overlooks) entry_mem named)⟩

theorem element_stands {items : List Json} {index : Nat} {item : Json}
    (opens : Opens walker resolver dialect inherited context document
      (before ++ (name, .array items) :: after))
    (named : (walker context.vocabularies name).map Keyword.role = some .subschemaList)
    (there : items[index]? = some item) :
    Stands walker resolver dialect document
      ⟨context.dialect, (context.pointer.child name).item index, item⟩ := by
  refine ⟨opens.stands.distinct, ?_, ?_⟩
  · rw [Pointer.item, Pointer.select?_child, opens.held, Option.bind_some, Pointer.step?_item,
      there]
  · intro overlooks
    have step := Subschema.element (opens.known overlooks) entry_mem named there
    exact (opens.stands.reached overlooks).tail step

theorem member_stands {entries : Members} {key : String} {item : Json}
    (opens : Opens walker resolver dialect inherited context document
      (before ++ (name, .object entries) :: after))
    (named : (walker context.vocabularies name).map Keyword.role = some .subschemaMap)
    (there : (key, item) ∈ entries) :
    Stands walker resolver dialect document
      ⟨context.dialect, (context.pointer.child name).child key, item⟩ := by
  refine ⟨opens.stands.distinct, ?_, ?_⟩
  · have inside := Pointer.distinct_of_select? opens.stands.distinct opens.held
    rw [Pointer.select?_child, opens.held, Option.bind_some]
    exact (Members.mem_iff_get? inside.1).mp there
  · intro overlooks
    have step := Subschema.member (opens.known overlooks) entry_mem named there
    exact (opens.stands.reached overlooks).tail step

end Opens

end SchemaPack
