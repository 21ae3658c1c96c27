import SchemaPack.Proofs.Plan.Surface
import SchemaPack.Proofs.Plan.Totality
import SchemaPack.Proofs.Schema.Annotation

namespace SchemaPack

open Json

section Roles

variable {resolver : Resolver} {dialect : String}

theorem items?_bareAs (value : Json) :
    (bareAs resolver dialect (some .subschemaList) value).items? =
      value.items?.map (·.map (Json.bare resolver dialect)) := by
  cases value with
  | array items =>
    rw [bareAs, bareItems_eq]
    rfl
  | null | bool | number | string | object => rw [bareAs] <;> simp [Json.items?]

theorem members?_bareAs (value : Json) :
    (bareAs resolver dialect (some .subschemaMap) value).members? =
      value.members?.map (·.map fun entry => (entry.1, entry.2.bare resolver dialect)) := by
  cases value with
  | object members =>
    rw [bareAs, bareEntries_eq]
    rfl
  | null | bool | number | string | array => rw [bareAs] <;> simp [Json.members?]

/-- Two schemas between which there are annotations alone, of which the first is precise. -/
structure SameBare (resolver : Resolver) (dialect : String) (x y : Json) : Prop where
  left : x.Distinct
  right : y.Distinct
  same : x.bare resolver dialect = y.bare resolver dialect
  precise : x.Precise

variable {as bs : List Json} {ms ns : Members} {v w : Json}

theorem covers_of_bare (left : (Json.array as).Distinct) (right : (Json.array bs).Distinct)
    (same : as.map (Json.bare resolver dialect) = bs.map (Json.bare resolver dialect))
    (precise : (Json.array as).Precise) : Covers (SameBare resolver dialect) as bs := by
  rw [distinct_array] at left right
  rw [precise_array] at precise
  constructor
  · intro a listed
    have image := List.mem_map_of_mem (f := Json.bare resolver dialect) listed
    obtain ⟨b, also, equal⟩ := List.mem_map.mp (same ▸ image)
    exact ⟨b, also, left a listed, right b also, equal.symm, precise a listed⟩
  · intro b listed
    have image := same ▸ List.mem_map_of_mem (f := Json.bare resolver dialect) listed
    obtain ⟨a, also, equal⟩ := List.mem_map.mp image
    exact ⟨a, also, left a also, right b listed, equal, precise a also⟩

theorem paired_of_bare (left : (Json.object ms).Distinct) (right : (Json.object ns).Distinct)
    (same : ms.map (fun entry => (entry.1, entry.2.bare resolver dialect)) =
      ns.map fun entry => (entry.1, entry.2.bare resolver dialect))
    (precise : (Json.object ms).Precise) : Paired (SameBare resolver dialect) ms ns where
  left := (distinct_object.mp left).1
  right := (distinct_object.mp right).1
  values := by
    intro name
    have found := congrArg (Members.get? · name) same
    rw [Members.get?_map, Members.get?_map] at found
    refine rel_imp (rel_of_map_eq found) ?_
    intro v w here there equal
    exact ⟨left.get? here, right.get? there, equal, precise.get? here⟩

theorem inside_of_bareAs {role : Role} (left : v.Distinct) (right : w.Distinct)
    (same : bareAs resolver dialect (some role) v = bareAs resolver dialect (some role) w)
    (precise : v.Precise) : Inside (SameBare resolver dialect) role v w := by
  cases role with
  | subschema => exact ⟨left, right, same, precise⟩
  | subschemaList =>
    have lists := congrArg Json.items? same
    rw [items?_bareAs, items?_bareAs] at lists
    cases v with
    | array as =>
      cases w with
      | array bs =>
        exact .some (covers_of_bare left right (Option.some.inj lists) precise)
      | null | bool | number | string | object => cases lists
    | null | bool | number | string | object =>
      cases w with
      | array => cases lists
      | null | bool | number | string | object => exact .none
  | subschemaMap =>
    have maps := congrArg Json.members? same
    rw [members?_bareAs, members?_bareAs] at maps
    cases v with
    | object ms =>
      cases w with
      | object ns =>
        exact .some (paired_of_bare left right (Option.some.inj maps) precise)
      | null | bool | number | string | array => cases maps
    | null | bool | number | string | array =>
      cases w with
      | object => cases maps
      | null | bool | number | string | array => exact .none
  | identity | reference | comment | assertion | descriptive => trivial

theorem bare_get?_data {members : Members} {name : String} (data : name ∈ Keyword.data) :
    ((Json.object members).bare resolver dialect).get? name = Members.get? members name := by
  have kept : ∀ name ∈ Keyword.data, Keyword.annotates name = false := by decide +kernel
  have none : ∀ vocabularies,
      ((Keyword.find? vocabularies name).map Keyword.role).all (!·.holdsSubschemas) = true := by
    intro vocabularies
    apply Keyword.holds_none
    rintro keyword listed rfl
    exact Fresh.data_holds_none keyword listed data
  obtain ⟨own, vocabularies, look⟩ := @exists_bare_get? resolver dialect members
  rw [look members rfl name (kept name data), funext (bareAs_eq_self (none vocabularies))]
  exact Option.map_id'

theorem akin_of_bare {D : Json → Json → Prop} {I : String → Json → Json → Prop} {x y : Json}
    (left : x.Distinct) (right : y.Distinct)
    (same : x.bare resolver dialect = y.bare resolver dialect)
    (self : ∀ name v, v.Distinct → x.get? name = some v → D v v ∧ I name v v)
    (inside : ∀ own name v w, v.Distinct → w.Distinct →
      let role := some (Keyword.roleOf name)
      bareAs resolver own role v = bareAs resolver own role w → x.get? name = some v →
        I name v w) :
    Akin (.across D I) x y := by
  have kind : x.isObject = y.isObject := by
    rw [← @isObject_bare resolver dialect x, same, isObject_bare]
  cases object : x.isObject with
  | false =>
    rw [bare_eq_self object, bare_eq_self (kind ▸ object)] at same
    subst same
    refine ⟨rfl, rfl, fun impossible => ?_⟩
    rw [object] at impossible
    cases impossible
  | true =>
    obtain ⟨members, rfl⟩ := eq_object_of_isObject object
    obtain ⟨others, rfl⟩ := eq_object_of_isObject (kind ▸ object)
    have read : ∀ name ∈ Keyword.data, Members.get? members name = Members.get? others name := by
      intro name data
      rw [← @bare_get?_data resolver dialect members name data, same, bare_get?_data data]
    have declared : Dialect.declared? (.object others) = Dialect.declared? (.object members) := by
      rw [Dialect.declared?, Dialect.declared?, get?_object, get?_object,
        read "$schema" List.mem_cons_self]
    obtain ⟨own, vocabularies, look⟩ := @exists_bare_get? resolver dialect members
    refine Parallel.akin ⟨rfl, rfl, (distinct_object.mp left).1, (distinct_object.mp right).1, ?_⟩
    intro name
    rw [get?_object, get?_object]
    refine Tolerance.across_intro (fun data => ?_) fun shown _ => ?_
    · rw [← read name data]
      exact rel_refl fun v found => (self name v (left.get? found) found).1
    · have kept := Keyword.annotates_of_visible name (List.mem_append_right _ shown)
      have here := look members rfl name kept
      have there := look others declared name kept
      rw [← same, here] at there
      refine rel_imp (rel_of_map_eq there) ?_
      intro v w one two equal
      rcases Keyword.role_cases vocabularies name with none | ⟨known, _⟩
      · rw [bareAs_eq_self none, bareAs_eq_self none] at equal
        exact equal ▸ (self name v (left.get? one) one).2
      · rw [known] at equal
        exact inside own name v w (left.get? one) (right.get? two) equal one

theorem isHollow_bareAs {name : String} (emptiable : name ∈ ["patternProperties",
      "dependentRequired"]) (value : Json) :
    (bareAs resolver dialect (some (Keyword.roleOf name)) value).isHollow = value.isHollow := by
  have roles : ∀ name ∈ ["patternProperties", "dependentRequired"],
      Keyword.roleOf name = .subschemaMap ∨ Keyword.roleOf name = .assertion := by
    decide +kernel
  rcases roles name emptiable with map | assertion
  · rw [map, isHollow, isHollow, members?_bareAs]
    cases value.members? with
    | none => rfl
    | some members => simp
  · rw [assertion, bareAs_eq_self (by rfl)]

theorem surface_of_bare {x y : Json} (left : x.Distinct) (right : y.Distinct)
    (same : x.bare resolver dialect = y.bare resolver dialect) : Akin .surface x y := by
  refine akin_of_bare left right same (fun _ _ _ _ => ⟨rfl, fun _ => rfl⟩) ?_
  intro own name v w _ _ role equal _ emptiable
  rw [← @isHollow_bareAs resolver own name emptiable v, equal, isHollow_bareAs emptiable]

/-- Schemas between which there are annotations alone are counterparts. -/
theorem SameBare.counterpart {x y : Json} (related : SameBare resolver dialect x y) :
    Counterpart x y := by
  -- a keyword that is unknown where it stands keeps its value, annotations and all
  refine ⟨fun a b => (∃ dialect, SameBare resolver dialect a b) ∨ Counterpart a b, ?_,
    .inl ⟨dialect, related⟩⟩
  rintro a b (⟨dialect, left, right, same, precise⟩ | same)
  · refine akin_of_bare left right same ?_ ?_
    · intro name v distinct found
      have precise := precise.of_get? found
      refine ⟨.refl distinct precise, .refl ?_ distinct precise⟩
      exact fun a distinct precise => .inr (.refl distinct precise)
    · intro own name v w left right role equal found
      refine (inside_of_bareAs left right equal (precise.of_get? found)).mono ?_
      exact fun a b related => .inl ⟨own, related⟩
  · exact same.akin.mono fun _ _ _ => Tolerance.upTo_mono fun _ _ => .inr

end Roles

/-- A schema compiles to an encoding under the official metaschemas, in however many steps. -/
def Compiles (default : Option String) (schema result : Json) : Prop :=
  ∃ limit, (compile Dialect.official default schema limit).result = .ok result

theorem compiles_iff {default : Option String} {schema result : Json} :
    Compiles default schema result ↔
      ∃ canonical, (∃ limit, (canonicalize Dialect.official default schema limit).result =
        .ok canonical) ∧
          ∃ limit, (plan Dialect.official default canonical limit).result = .ok result := by
  constructor
  · rintro ⟨limit, compiled⟩
    obtain ⟨canonical, first, second⟩ := Traced.bind_result_ok compiled
    exact ⟨canonical, ⟨limit, first⟩, limit, second⟩
  · rintro ⟨canonical, ⟨limit, first⟩, more, second⟩
    rw [canonicalize] at first
    have left := (saturate_extends canonicalRules Keyword.find? _ default schema
      (Nat.le_max_left limit more)).eq_of_ok first
    have right := (plan_extends Dialect.official default canonical
      (Nat.le_max_right limit more)).eq_of_ok second
    refine ⟨max limit more, ?_⟩
    rw [compile, canonicalize, left, Traced.bind_ok first, right]
    exact second

section Compilation

variable {default : Option String} {x y result : Json}

theorem foreign_draft202012 : Dialect.draft202012 ≠ Encoding.metaschemaId := by decide +kernel

theorem base_draft202012 :
    Dialect.base (Encoding.resolver Dialect.official) Dialect.draft202012 =
      .ok Dialect.draft202012 := by
  decide +kernel

theorem SameBare.compiles
    (related : SameBare (Encoding.resolver Dialect.official) Dialect.draft202012 x y)
    (precise : y.Precise) (root : Dialect.ofDocument y default = .ok Dialect.draft202012)
    (compiled : Compiles default x result) : ∃ other, Compiles default y other := by
  obtain ⟨canonical, ⟨limit, first⟩, _⟩ := compiles_iff.mp compiled
  obtain ⟨more, reached, second⟩ := canonicalize_parity related.counterpart related.right precise
    first
  obtain ⟨steps, planned, last⟩ := plan_total root foreign_draft202012 base_draft202012 second
  exact ⟨planned, compiles_iff.mpr ⟨reached, ⟨more, second⟩, steps, last⟩⟩

end Compilation

/-- Annotations do not influence the plan: two schemas that are the same without annotations have no
    two plans. Both have a plan or none has, as long as no double in either of them is one that two
    integers count as equal to. -/
theorem compiles_bare (default : Option String) (x y : Json) (left : x.Distinct)
    (right : y.Distinct) (root : Dialect.ofDocument x default = .ok Dialect.draft202012)
    (same : x.bare (Encoding.resolver Dialect.official) Dialect.draft202012 =
      y.bare (Encoding.resolver Dialect.official) Dialect.draft202012) :
    (∀ a b, Compiles default x a → Compiles default y b → a = b) ∧
      (x.Precise → y.Precise →
        ∀ result, Compiles default x result ↔ Compiles default y result) := by
  have surface := surface_of_bare left right same
  have declared := surface.declared? surface_lenient resemblance_eq
  have also : Dialect.ofDocument y default = .ok Dialect.draft202012 := by
    rw [← root, Dialect.ofDocument, Dialect.ofDocument, declared]
  have foreign : Dialect.ofDocument x default ≠ .ok Encoding.metaschemaId := by
    rw [root]
    exact fun equal => foreign_draft202012 (Except.ok.inj equal)
  have agree : ∀ a b, Compiles default x a → Compiles default y b → a = b := by
    rintro a b ⟨limit, first⟩ ⟨more, second⟩
    exact compile_surface surface foreign first second
  refine ⟨agree, fun sharp sharper result => ⟨fun compiled => ?_, fun compiled => ?_⟩⟩
  · obtain ⟨other, again⟩ := SameBare.compiles ⟨left, right, same, sharp⟩ sharper also compiled
    rw [agree result other compiled again]
    exact again
  · obtain ⟨other, again⟩ :=
      SameBare.compiles ⟨right, left, same.symm, sharper⟩ sharp root compiled
    rw [← agree other result again compiled]
    exact again

theorem compiles_bare_branches :
    let branch := Json.object [("enum", .array [.number (.integer 7)])]
    let other := Json.object [("$comment", .null), ("enum", .array [.number (.integer 7)]),
      ("unknown", .object [("$schema", .string "urn:unknown")])]
    let x := Json.object [("anyOf", .array [branch, branch]), ("type", .string "integer"),
      ("maximum", .number (.integer 9))]
    let y := Json.object [("title", .number (.integer 9007199254740993)),
      ("anyOf", .array [branch, other]), ("type", .string "integer"),
      ("maximum", .number (.integer 9))]
    let result := (Encoding.roofMultipleMirrorEnumVarint 9 1).document
    let default := some Dialect.draft202012
    let bare := Json.bare (Encoding.resolver Dialect.official) Dialect.draft202012
    x.Distinct ∧ y.Distinct ∧ Dialect.ofDocument x default = .ok Dialect.draft202012 ∧
      bare x = bare y ∧ x.Precise ∧ y.Precise ∧ Compiles default x result ∧
        Compiles default y result ∧ ∀ a b, Compiles default x a → Compiles default y b → a = b := by
  intro branch other x y result default bare
  have left : x.Distinct := by decide +kernel
  have right : y.Distinct := by decide +kernel
  have root : Dialect.ofDocument x default = .ok Dialect.draft202012 := by decide +kernel
  have same : bare x = bare y := by decide +kernel
  have sharp : x.Precise := Literal.precise (by decide +kernel)
  have sharper : y.Precise := Literal.precise (by decide +kernel)
  have compiled : Compiles default x result := ⟨20, by decide +kernel⟩
  obtain ⟨unique, both⟩ := compiles_bare default x y left right root same
  exact ⟨left, right, root, same, sharp, sharper, compiled,
    (both sharp sharper result).mp compiled, unique⟩

theorem not_compiles {default : Option String} {schema : Json} {limit : Nat} {stop : Stop}
    (failed : (canonicalize Dialect.official default schema limit).result = .error stop)
    (enough : stop ≠ .outOfSteps) (result : Json) : ¬Compiles default schema result := by
  rintro compiled
  obtain ⟨canonical, ⟨more, given⟩, _⟩ := compiles_iff.mp compiled
  rcases Nat.le_total limit more with le | le
  · have longer := saturate_extends canonicalRules Keyword.find? (Encoding.resolver
      Dialect.official) default schema le
    have same := longer.eq_of_enough fun short =>
      enough (Except.error.inj (failed.symm.trans short))
    rw [canonicalize] at given failed
    rw [same, failed] at given
    cases given
  · have same := (saturate_extends canonicalRules Keyword.find? _ default schema le).eq_of_ok given
    rw [canonicalize] at given failed
    rw [same, given] at failed
    cases failed

/-- A branch that counts as equal to another one is not visited. With a title it is, and then its
    subschema is found to be in an unknown dialect. -/
theorem compiles_not_bare :
    let range := fun maximum : Number => [("type", Json.string "integer"),
      ("minimum", .number (.integer 9007199254740993)), ("maximum", .number maximum),
      ("properties", .object [("a", .object [("$schema", .string "urn:unknown")])])]
    let first := Json.object (range (.integer 9007199254740992))
    let second := range (.real ⟨false, 4503599627370496, 1075, by decide⟩)
    let x := Json.object [("anyOf", .array [first, .object second])]
    let y := Json.object [("anyOf", .array [first, .object (second ++ [("title", .string "x")])])]
    let result := Encoding.anyPackedTypeTagBytePrefix.document
    let default := some Dialect.draft202012
    let bare := Json.bare (Encoding.resolver Dialect.official) Dialect.draft202012
    x.Distinct ∧ y.Distinct ∧ Dialect.ofDocument x default = .ok Dialect.draft202012 ∧
      bare x = bare y ∧ Compiles default x result ∧ ¬Compiles default y result := by
  intro range first second x y result default bare
  have failed : (canonicalize Dialect.official default y 40).result =
      .error (.failed (.unresolvedMetaschema "urn:unknown")) := by decide +kernel
  exact ⟨by decide +kernel, by decide +kernel, by decide +kernel, by decide +kernel,
    ⟨40, by decide +kernel⟩, not_compiles failed nofun result⟩

end SchemaPack
