import SchemaPack.Canonical
import SchemaPack.Proofs.Canonical.Applicability
import SchemaPack.Proofs.Canonical.Collapse
import SchemaPack.Proofs.Json.Resemblance

namespace SchemaPack

namespace Json

def isHollow (value : Json) : Bool := value.members?.any (·.isEmpty)

/-- What shows of a value under a keyword to those who do not read on: where the keyword does
    nothing when it is empty, whether it is. -/
def Shaped (name : String) (a b : Json) : Prop :=
  name ∈ ["patternProperties", "dependentRequired"] → a.isHollow = b.isHollow

theorem Resemblance.shaped {D : Json → Json → Prop} (resemblance : Resemblance D) {a b : Json}
    (name : String) (same : D a b) : Shaped name a b :=
  fun _ => any_congr (resemblance.members? same) fun _ _ => resemblance.empty

theorem eq_object_of_isObject {node : Json} (object : node.isObject = true) :
    ∃ members, node = .object members := by
  cases node with
  | object members => exact ⟨members, rfl⟩
  | null | bool | number | string | array => cases object

theorem not_true_of_isObject {node : Json} (object : node.isObject = true) :
    (node == .bool true) = false := by
  obtain ⟨members, rfl⟩ := eq_object_of_isObject object
  rfl

/-- Two nodes of a kind with related values under some keywords, and under others with values of
    which one is as good as the other for those who do not read on. -/
structure Coincide (D : Json → Json → Prop) (read shown : List String) (x y : Json) : Prop where
  object : x.isObject = y.isObject
  truth : (x == .bool true) = (y == .bool true)
  read : ∀ name ∈ read, Matches D x y name
  shown : ∀ name ∈ shown, Matches (Shaped name) x y name

theorem Coincide.mono {D : Json → Json → Prop} {read shown fewer less : List String} {x y : Json}
    (same : Coincide D read shown x y) (narrower : fewer ⊆ read) (nearer : less ⊆ shown) :
    Coincide D fewer less x y where
  object := same.object
  truth := same.truth
  read name used := same.read name (narrower used)
  shown name used := same.shown name (nearer used)

end Json

open Json

/-- The names of the validation vocabulary. Rules read their values. -/
def Keyword.assertions : List String :=
  (all.filter (·.vocabulary == Vocabulary.validation)).map (·.name)

theorem Keyword.assertions_eq : assertions =
    ["type", "enum", "const", "multipleOf", "maximum", "exclusiveMaximum", "minimum",
      "exclusiveMinimum", "maxLength", "minLength", "pattern", "maxItems", "minItems",
      "uniqueItems", "maxContains", "minContains", "maxProperties", "minProperties", "required",
      "dependentRequired"] := by
  decide +kernel

/-- The names of which rules see no more than whether they are there: annotations are not among
    them, comments neither. -/
def Keyword.shown : List String :=
  (all.filter fun keyword => keyword.vocabulary != Vocabulary.validation &&
    keyword.vocabulary != Vocabulary.metaData && keyword.role != .comment).map (·.name)

theorem Keyword.shown_eq : shown =
    ["$schema", "$id", "$anchor", "$dynamicAnchor", "$vocabulary", "$ref", "$dynamicRef", "$defs",
      "allOf", "anyOf", "oneOf", "not", "if", "then", "else", "dependentSchemas", "prefixItems",
      "items", "contains", "properties", "patternProperties", "additionalProperties",
      "propertyNames", "unevaluatedItems", "unevaluatedProperties", "format", "format",
      "contentEncoding", "contentMediaType", "contentSchema"] := by
  decide +kernel

/-- What a decision on a node goes by: one of some vocabularies has to be active, and of the node
    it reads the values of some keywords and sees of others whether they are there. -/
structure Footprint (D : Json → Json → Prop) (decision : Json → Context → Bool)
    (vocabularies read shown : List String) : Prop where
  guarded : ∀ node context, vocabularies.any context.has = false → decision node context = false
  congr : ∀ x y context other, context.vocabularies = other.vocabularies →
    Coincide D read shown x y → decision x context = decision y other

abbrev Rule.Footprint (D : Json → Json → Prop) (rule : Rule) :
    List String → List String → List String → Prop :=
  SchemaPack.Footprint D rule.condition

theorem Footprint.mono {D : Json → Json → Prop} {decision : Json → Context → Bool}
    {vocabularies read shown more others : List String}
    (footprint : Footprint D decision vocabularies read shown) (wider : read ⊆ more)
    (further : shown ⊆ others) : Footprint D decision vocabularies more others where
  guarded := footprint.guarded
  congr := by
    intro x y context other alike same
    exact footprint.congr x y context other alike (same.mono wider further)

section Guards

variable {context other : Context}

theorem Context.has_congr (alike : context.vocabularies = other.vocabularies)
    (vocabulary : String) : context.has vocabulary = other.has vocabulary := by
  rw [has, has, alike]

theorem not_has_of_any {vocabulary : String}
    (none : [vocabulary].any context.has = false) : context.has vocabulary = false := by
  simpa using none

end Guards

section Rules

variable {D : Json → Json → Prop} (resemblance : Resemblance D)

open Vocabulary

namespace Redundancy

theorem withoutCompanion_footprint (name vocabulary keyword companion : String) :
    (withoutCompanion name vocabulary keyword companion).Footprint D [vocabulary] []
      [keyword, companion] where
  guarded := by
    intro node context none
    simp only [withoutCompanion, not_has_of_any none, Bool.false_and]
  congr := by
    intro x y context other alike same
    simp only [withoutCompanion, Context.has_congr alike,
      (same.shown keyword (by simp)).contains, (same.shown companion (by simp)).contains]

theorem ifWithoutBranches_footprint :
    ifWithoutBranches.Footprint D [applicator] [] ["if", "then", "else"] where
  guarded := by
    intro node context none
    simp only [ifWithoutBranches, not_has_of_any none, Bool.false_and]
  congr := by
    intro x y context other alike same
    have branches : x.containsAny ["then", "else"] = y.containsAny ["then", "else"] :=
      containsAny_congr fun name listed => same.shown name (List.mem_cons_of_mem "if" listed)
    simp only [ifWithoutBranches, Context.has_congr alike, (same.shown "if" (by simp)).contains,
      branches]

theorem branchesWithoutIf_footprint :
    branchesWithoutIf.Footprint D [applicator] [] ["if", "then", "else"] where
  guarded := by
    intro node context none
    simp only [branchesWithoutIf, not_has_of_any none, Bool.false_and]
  congr := by
    intro x y context other alike same
    have branches : x.containsAny ["then", "else"] = y.containsAny ["then", "else"] :=
      containsAny_congr fun name listed => same.shown name (List.mem_cons_of_mem "if" listed)
    simp only [branchesWithoutIf, Context.has_congr alike, (same.shown "if" (by simp)).contains,
      branches]

theorem emptyObject_footprint (name vocabulary : String) {keyword : String}
    (emptiable : keyword ∈ ["patternProperties", "dependentRequired"]) :
    (emptyObject name vocabulary keyword).Footprint D [vocabulary] [] [keyword] where
  guarded := by
    intro node context none
    simp only [emptyObject, not_has_of_any none, Bool.false_and]
  congr := by
    intro x y context other alike same
    have hollow : (x.objectAt? keyword).any (·.isEmpty) =
        (y.objectAt? keyword).any (·.isEmpty) := by
      have related := same.shown keyword (by simp)
      unfold Json.objectAt?
      rcases rel_cases related with ⟨left, right⟩ | ⟨a, b, left, right, shaped⟩
      · rw [left, right]
      · rw [left, right]
        exact shaped emptiable
    simp only [emptyObject, Context.has_congr alike, hollow]

include resemblance

theorem maxContainsAboveMaxItems_footprint :
    maxContainsAboveMaxItems.Footprint D [validation] ["maxContains", "maxItems"] [] where
  guarded := by
    intro node context none
    simp only [maxContainsAboveMaxItems, not_has_of_any none, Bool.false_and]
  congr := by
    intro x y context other alike same
    have matched := resemblance.numberAt? (same.read "maxContains" (by simp))
    have items := resemblance.numberAt? (same.read "maxItems" (by simp))
    simp only [maxContainsAboveMaxItems, Context.has_congr alike]
    congr 1
    rcases rel_cases matched with ⟨left, right⟩ | ⟨a, b, left, right, first⟩
    · rw [left, right]
    · rcases rel_cases items with ⟨left', right'⟩ | ⟨c, d, left', right', second⟩
      · rw [left, right, left', right']
      · rw [left, right, left', right']
        exact congrArg (· != .lt) (resemblance.compare_number first second)

theorem isShort_congr {a b : Json} (same : D a b) : isShort a = isShort b := by
  unfold isShort
  rcases rel_cases (resemblance.items? same) with ⟨left, right⟩ | ⟨as, bs, left, right, items⟩
  · rw [left, right]
  · rw [left, right, Option.all_some, Option.all_some, items.length_eq]

theorem impliedUniqueItems_footprint :
    impliedUniqueItems.Footprint D [validation] ["uniqueItems", "maxItems", "const", "enum"]
      [] where
  guarded := by
    intro node context none
    simp only [impliedUniqueItems, not_has_of_any none, Bool.false_and]
  congr := by
    intro x y context other alike same
    have unique : (x.get? "uniqueItems").any (· == .bool true) =
        (y.get? "uniqueItems").any (· == .bool true) :=
      any_congr (same.read "uniqueItems" (by simp)) fun _ _ => resemblance.isTrue
    have most := resemblance.atMost (same.read "maxItems" (by simp)) 1
    have const : (x.get? "const").any isShort = (y.get? "const").any isShort :=
      any_congr (same.read "const" (by simp)) fun _ _ => isShort_congr resemblance
    have enum : (x.arrayAt? "enum").any (·.all isShort) =
        (y.arrayAt? "enum").any (·.all isShort) := by
      apply any_congr (resemblance.arrayAt? (same.read "enum" (by simp)))
      intro as bs items
      exact all_congr_of_forall₂ items fun _ _ => isShort_congr resemblance
    simp only [impliedUniqueItems, Context.has_congr alike, unique, most, const, enum]

theorem tighterBound_footprint (name inclusive exclusive : String) (tighter : Ordering) :
    (tighterBound name inclusive exclusive tighter).Footprint D [validation]
      [inclusive, exclusive] [] where
  guarded := by
    intro node context none
    simp only [tighterBound, not_has_of_any none, Bool.false_and]
  congr := by
    intro x y context other alike same
    have closed := isSome_congr (resemblance.numberAt? (same.read inclusive (by simp)))
    have opened := isSome_congr (resemblance.numberAt? (same.read exclusive (by simp)))
    simp only [tighterBound, Context.has_congr alike, closed, opened]

theorem constWithType_footprint :
    constWithType.Footprint D [validation] ["type", "const"] [] where
  guarded := by
    intro node context none
    simp only [constWithType, not_has_of_any none, Bool.false_and]
  congr := by
    intro x y context other alike same
    have type := resemblance.declaredType? (same.read "type" (by simp))
    simp only [constWithType, Context.has_congr alike, type]
    congr 1
    cases y.declaredType? with
    | none => rfl
    | some type =>
      rcases rel_cases (same.read "const" (by simp)) with ⟨left, right⟩ | ⟨a, b, left, right, value⟩
      · rw [left, right]
      · rw [left, right]
        exact resemblance.isInstanceOf value type

theorem enumWithType_footprint :
    enumWithType.Footprint D [validation] ["type", "enum"] [] where
  guarded := by
    intro node context none
    simp only [enumWithType, not_has_of_any none, Bool.false_and]
  congr := by
    intro x y context other alike same
    have type := resemblance.declaredType? (same.read "type" (by simp))
    have enum := resemblance.arrayAt? (same.read "enum" (by simp))
    simp only [enumWithType, Context.has_congr alike, type]
    congr 1
    cases y.declaredType? with
    | none => rfl
    | some type =>
      rcases rel_cases enum with ⟨left, right⟩ | ⟨as, bs, left, right, items⟩
      · rw [left, right]
      · rw [left, right]
        dsimp only
        rw [isEmpty_congr_of_forall₂ items,
          all_congr_of_forall₂ items fun _ _ same => resemblance.isInstanceOf same type]

theorem idleBesideEnum_congr {x y : Json} (same : Coincide D ["enum"] Keyword.assertions x y) :
    idleBesideEnum x = idleBesideEnum y := by
  have enum := resemblance.arrayAt? (same.read "enum" (by simp))
  have type := (same.shown "type" (by decide)).contains
  unfold idleBesideEnum
  rcases rel_cases enum with ⟨left, right⟩ | ⟨as, bs, left, right, items⟩
  · rw [left, right]
  · have types := map_congr_of_forall₂ items fun _ _ => resemblance.typeOf
    rw [left, right]
    dsimp only
    rw [isEmpty_congr_of_forall₂ items, type, types]
    congr 2
    apply List.filter_congr
    intro keyword listed
    cases validated : keyword.vocabulary == validation with
    | false => rfl
    | true =>
      have asserted : keyword.name ∈ Keyword.assertions :=
        List.mem_map_of_mem (List.mem_filter.mpr ⟨listed, validated⟩)
      rw [(same.shown keyword.name asserted).contains]

theorem idleAssertionsBesideEnum_footprint :
    idleAssertionsBesideEnum.Footprint D [validation] ["enum"] Keyword.assertions where
  guarded := by
    intro node context none
    simp only [idleAssertionsBesideEnum, not_has_of_any none, Bool.false_and]
  congr := by
    intro x y context other alike same
    simp only [idleAssertionsBesideEnum, Context.has_congr alike,
      idleBesideEnum_congr resemblance same]

end Redundancy

namespace Spelling

theorem trueSchema_footprint : trueSchema.Footprint D [core] [] [] where
  guarded := by
    intro node context none
    simp only [trueSchema, not_has_of_any none, Bool.false_and]
  congr := by
    intro x y context other alike same
    simp only [trueSchema, Context.has_congr alike, same.truth]

theorem constAsEnum_footprint :
    constAsEnum.Footprint D [validation] [] ["const", "enum"] where
  guarded := by
    intro node context none
    simp only [constAsEnum, not_has_of_any none, Bool.false_and]
  congr := by
    intro x y context other alike same
    simp only [constAsEnum, Context.has_congr alike, (same.shown "const" (by simp)).contains,
      (same.shown "enum" (by simp)).contains]

include resemblance

theorem booleanAsEnum_footprint :
    booleanAsEnum.Footprint D [validation] ["type"] ["enum", "const"] where
  guarded := by
    intro node context none
    simp only [booleanAsEnum, not_has_of_any none, Bool.false_and]
  congr := by
    intro x y context other alike same
    simp only [booleanAsEnum, Context.has_congr alike,
      resemblance.hasType (same.read "type" (by simp)), containsAny_congr same.shown]

theorem nullAsConst_footprint :
    nullAsConst.Footprint D [validation] ["type"] ["enum", "const"] where
  guarded := by
    intro node context none
    simp only [nullAsConst, not_has_of_any none, Bool.false_and]
  congr := by
    intro x y context other alike same
    simp only [nullAsConst, Context.has_congr alike,
      resemblance.hasType (same.read "type" (by simp)), containsAny_congr same.shown]

theorem typeUnion_footprint : typeUnion.Footprint D [validation] ["type"] [] where
  guarded := by
    intro node context none
    simp only [typeUnion, not_has_of_any none, Bool.false_and]
  congr := by
    intro x y context other alike same
    have types : (x.arrayAt? "type").any (fun types =>
        1 < types.length && types.all (·.string?.isSome)) =
        (y.arrayAt? "type").any fun types =>
          1 < types.length && types.all (·.string?.isSome) := by
      apply any_congr (resemblance.arrayAt? (same.read "type" (by simp)))
      intro as bs items
      have strings : as.all (·.string?.isSome) = bs.all (·.string?.isSome) :=
        all_congr_of_forall₂ items fun _ _ same => by rw [resemblance.string? same]
      rw [items.length_eq, strings]
    simp only [typeUnion, Context.has_congr alike, types]

theorem inclusive?_congr {rounding : Rounding} {step : Int} {a b : Number}
    (same : D (.number a) (.number b)) :
    Option.Rel (fun a b => D (.number a) (.number b)) (inclusive? rounding step a)
      (inclusive? rounding step b) := by
  rw [inclusive?, inclusive?, resemblance.integral same]
  split
  · rw [resemblance.offset? same]
    exact rel_refl fun _ moved => resemblance.refl (literal_of_offset? moved)
  · exact .some (resemblance.round same rounding)

theorem inclusiveBound_footprint (name exclusive inclusive : String) (rounding : Rounding)
    (step : Int) :
    (inclusiveBound name exclusive inclusive rounding step).Footprint D [validation]
      ["type", exclusive] [inclusive] where
  guarded := by
    intro node context none
    simp only [inclusiveBound, not_has_of_any none, Bool.false_and]
  congr := by
    intro x y context other alike same
    have bound := isSome_congr (rel_bind
      (resemblance.numberAt? (same.read exclusive (by simp)))
      fun _ _ => @inclusive?_congr D resemblance rounding step _ _)
    simp only [inclusiveBound, Context.has_congr alike,
      resemblance.hasType (same.read "type" (by simp)), (same.shown inclusive (by simp)).contains,
      bound]

end Spelling

namespace Collapse

include resemblance

theorem singleType_footprint : singleType.Footprint D [validation] ["type"] [] where
  guarded := by
    intro node context none
    simp only [singleType, not_has_of_any none, Bool.false_and]
  congr := by
    intro x y context other alike same
    simp only [singleType, Context.has_congr alike]
    congr 1
    rcases rel_cases (resemblance.arrayAt? (same.read "type" (by simp))) with
      ⟨left, right⟩ | ⟨as, bs, left, right, items⟩
    · rw [left, right]
    · rw [left, right]
      cases items with
      | nil => rfl
      | cons first rest =>
        cases rest with
        | nil => cases resemblance.kindred first with
          | null | bool | number | string | array | object => rfl
        | cons => cases resemblance.kindred first with
          | null | bool | number | string | array | object => rfl

theorem constInEnum_footprint : constInEnum.Footprint D [validation] ["const", "enum"] [] where
  guarded := by
    intro node context none
    simp only [constInEnum, not_has_of_any none, Bool.false_and]
  congr := by
    intro x y context other alike same
    simp only [constInEnum, Context.has_congr alike]
    congr 1
    rcases rel_cases (same.read "const" (by simp)) with ⟨left, right⟩ | ⟨a, b, left, right, value⟩
    · rw [left, right]
    · rcases rel_cases (resemblance.arrayAt? (same.read "enum" (by simp))) with
        ⟨left', right'⟩ | ⟨as, bs, left', right', items⟩
      · rw [left, right, left', right']
      · rw [left, right, left', right']
        exact any_congr_of_forall₂ items fun _ _ same => resemblance.equal same value

theorem multipleAdmits?_congr {x y : Json} (same : Matches D x y "multipleOf") {a b : Number}
    (value : D (.number a) (.number b)) : multipleAdmits? x a = multipleAdmits? y b := by
  unfold multipleAdmits?
  rcases rel_cases same with ⟨left, right⟩ | ⟨c, d, left, right, multiple⟩
  · rw [left, right]
  · rw [left, right]
    cases resemblance.kindred multiple with
    | number n m =>
      simp only [resemblance.integral multiple, resemblance.integral value,
        resemblance.toInt64? multiple, resemblance.toInt64? value]
    | null | bool | string | array | object => rfl

theorem pinned?_congr {x y : Json}
    (same : Coincide D ["type", "minimum", "maximum", "multipleOf"]
      ["const", "enum", "exclusiveMinimum", "exclusiveMaximum"] x y) :
    Option.Rel (fun a b => D (.number a) (.number b)) (pinned? x) (pinned? y) := by
  have type := resemblance.hasType (same.read "type" (by simp))
  unfold pinned?
  simp only [containsAny_congr same.shown, type]
  split
  · rcases rel_cases (resemblance.numberAt? (same.read "minimum" (by simp))) with
      ⟨left, right⟩ | ⟨a, b, left, right, least⟩
    · rw [left, right]
      exact .none
    rcases rel_cases (resemblance.numberAt? (same.read "maximum" (by simp))) with
      ⟨left', right'⟩ | ⟨c, d, left', right', most⟩
    · rw [left, right, left', right']
      exact .none
    · simp only [left, right, left', right', Option.bind_eq_bind, Option.bind_some,
        resemblance.compare_number least most, resemblance.integral least]
      split
      · exact .some least
      · exact .none
  · exact .none

theorem equalBounds_footprint :
    equalBounds.Footprint D [validation] ["type", "minimum", "maximum", "multipleOf"]
      ["const", "enum", "exclusiveMinimum", "exclusiveMaximum"] where
  guarded := by
    intro node context none
    simp only [equalBounds, not_has_of_any none, Bool.false_and]
  congr := by
    intro x y context other alike same
    have admitted : (pinned? x).any (fun value => multipleAdmits? x value == some true) =
        (pinned? y).any fun value => multipleAdmits? y value == some true :=
      any_congr (pinned?_congr resemblance same) fun _ _ value => congrArg (· == some true)
        (multipleAdmits?_congr resemblance (same.read "multipleOf" (by simp)) value)
    simp only [equalBounds, Context.has_congr alike, admitted]

theorem equalBounds_crashes :
    Footprint D equalBounds.crashes [validation] ["type", "minimum", "maximum", "multipleOf"]
      ["const", "enum", "exclusiveMinimum", "exclusiveMaximum"] where
  guarded := by
    intro node context none
    simp only [equalBounds, not_has_of_any none, Bool.false_and]
  congr := by
    intro x y context other alike same
    have undecided : (pinned? x).any (fun value => multipleAdmits? x value == Option.none) =
        (pinned? y).any fun value => multipleAdmits? y value == Option.none :=
      any_congr (pinned?_congr resemblance same) fun _ _ value => congrArg (· == Option.none)
        (multipleAdmits?_congr resemblance (same.read "multipleOf" (by simp)) value)
    simp only [equalBounds, Context.has_congr alike, undecided]

theorem emptyString_footprint :
    emptyString.Footprint D [validation] ["type", "maxLength", "minLength"]
      ["const", "enum", "pattern"] where
  guarded := by
    intro node context none
    simp only [emptyString, not_has_of_any none, Bool.false_and]
  congr := by
    intro x y context other alike same
    simp only [emptyString, Context.has_congr alike, containsAny_congr same.shown,
      resemblance.hasType (same.read "type" (by simp)),
      resemblance.zeroAt (same.read "maxLength" (by simp)),
      resemblance.absentOrZero (same.read "minLength" (by simp))]

theorem emptyArray_footprint :
    emptyArray.Footprint D [validation] ["type", "maxItems", "minItems"]
      ["const", "enum", "contains"] where
  guarded := by
    intro node context none
    simp only [emptyArray, not_has_of_any none, Bool.false_and]
  congr := by
    intro x y context other alike same
    simp only [emptyArray, Context.has_congr alike, containsAny_congr same.shown,
      resemblance.hasType (same.read "type" (by simp)),
      resemblance.zeroAt (same.read "maxItems" (by simp)),
      resemblance.absentOrZero (same.read "minItems" (by simp))]

theorem emptyObject_footprint :
    emptyObject.Footprint D [validation] ["type", "maxProperties", "minProperties", "required"]
      ["const", "enum"] where
  guarded := by
    intro node context none
    simp only [emptyObject, not_has_of_any none, Bool.false_and]
  congr := by
    intro x y context other alike same
    have required : (x.get? "required").all (fun required => required.items?.any (·.isEmpty)) =
        (y.get? "required").all fun required => required.items?.any (·.isEmpty) := by
      rcases rel_cases (same.read "required" (by simp)) with
        ⟨left, right⟩ | ⟨a, b, left, right, value⟩
      · rw [left, right]
      · rw [left, right, Option.all_some, Option.all_some]
        exact any_congr (resemblance.items? value) fun _ _ => isEmpty_congr_of_forall₂
    simp only [emptyObject, Context.has_congr alike, containsAny_congr same.shown,
      resemblance.hasType (same.read "type" (by simp)),
      resemblance.zeroAt (same.read "maxProperties" (by simp)),
      resemblance.absentOrZero (same.read "minProperties" (by simp)), required]

theorem dependencies?_congr {m n : Members} (dependent : D (.object m) (.object n)) {a b : Json}
    (same : D a b) :
    Option.Rel (fun p q => p.1 = q.1 ∧ List.Forall₂ D p.2 q.2) (dependencies? m a)
      (dependencies? n b) := by
  cases resemblance.kindred same with
  | string s t =>
    cases resemblance.string same
    have found := rel_bind (resemblance.get? dependent s) fun _ _ => resemblance.items?
    simp only [dependencies?]
    rcases rel_cases found with ⟨left, right⟩ | ⟨as, bs, left, right, items⟩
    · rw [left, right]
      exact .none
    · rw [left, right]
      exact .some ⟨rfl, items⟩
  | null | bool | number | array | object => exact .none

theorem requiredDependencies_footprint :
    requiredDependencies.Footprint D [validation] ["required", "dependentRequired"] [] where
  guarded := by
    intro node context none
    simp only [requiredDependencies, not_has_of_any none, Bool.false_and]
  congr := by
    intro x y context other alike same
    simp only [requiredDependencies, Context.has_congr alike]
    congr 1
    rcases rel_cases (resemblance.arrayAt? (same.read "required" (by simp))) with
      ⟨left, right⟩ | ⟨as, bs, left, right, items⟩
    · rw [left, right]
    · rcases rel_cases (resemblance.objectAt? (same.read "dependentRequired" (by simp))) with
        ⟨left', right'⟩ | ⟨m, n, left', right', dependent⟩
      · rw [left, right, left', right']
      · rw [left, right, left', right']
        dsimp only
        apply any_congr_of_forall₂ items
        intro a b same
        exact isSome_congr (dependencies?_congr resemblance dependent same)

theorem distinctRequired?_congr {x y : Json} (same : Matches D x y "required") :
    distinctRequired? x = distinctRequired? y := by
  unfold distinctRequired?
  rcases rel_cases (resemblance.arrayAt? same) with ⟨left, right⟩ | ⟨as, bs, left, right, items⟩
  · rw [left, right]
  · rw [left, right]
    simp only [Option.bind_eq_bind, Option.bind_some, resemblance.hasDuplicates items,
      items.length_eq]

theorem requiredCount_footprint :
    requiredCount.Footprint D [validation] ["minProperties", "required"] [] where
  guarded := by
    intro node context none
    simp only [requiredCount, not_has_of_any none, Bool.false_and]
  congr := by
    intro x y context other alike same
    have least : (x.numberAt? "minProperties").bind (·.toInt64? .up) =
        (y.numberAt? "minProperties").bind (·.toInt64? .up) := by
      rcases rel_cases (resemblance.numberAt? (same.read "minProperties" (by simp))) with
        ⟨left, right⟩ | ⟨a, b, left, right, value⟩
      · rw [left, right]
      · rw [left, right, Option.bind_some, Option.bind_some, resemblance.toInt64? value]
    simp only [requiredCount, Context.has_congr alike, least,
      distinctRequired?_congr resemblance (same.read "required" (by simp))]

theorem requiredCount_crashes :
    Footprint D requiredCount.crashes [validation] ["required"] [] where
  guarded := by
    intro node context none
    simp only [requiredCount, not_has_of_any none, Bool.false_and]
  congr := by
    intro x y context other alike same
    have undecided : (x.arrayAt? "required").any (fun required => (hasDuplicates required).isNone) =
        (y.arrayAt? "required").any fun required => (hasDuplicates required).isNone :=
      any_congr (resemblance.arrayAt? (same.read "required" (by simp)))
        fun _ _ items => congrArg Option.isNone (resemblance.hasDuplicates items)
    simp only [requiredCount, Context.has_congr alike, undecided]

theorem duplicates_footprint (name keyword vocabulary : String) :
    (duplicates name keyword vocabulary).Footprint D [vocabulary] [keyword] [] where
  guarded := by
    intro node context none
    simp only [duplicates, not_has_of_any none, Bool.false_and]
  congr := by
    intro x y context other alike same
    have repeated : (x.arrayAt? keyword).any (fun values => hasDuplicates values == some true) =
        (y.arrayAt? keyword).any fun values => hasDuplicates values == some true :=
      any_congr (resemblance.arrayAt? (same.read keyword (by simp)))
        fun _ _ items => congrArg (· == some true) (resemblance.hasDuplicates items)
    simp only [duplicates, Context.has_congr alike, repeated]

theorem duplicates_crashes (name keyword vocabulary : String) :
    Footprint D (duplicates name keyword vocabulary).crashes [vocabulary] [keyword] [] where
  guarded := by
    intro node context none
    simp only [duplicates, not_has_of_any none, Bool.false_and]
  congr := by
    intro x y context other alike same
    simp only [duplicates, Context.has_congr alike]
    congr 1
    apply any_congr (resemblance.arrayAt? (same.read keyword (by simp)))
    intro as bs items
    have kept := isSome_congr (resemblance.sortUnique items)
    rw [resemblance.hasDuplicates items, ← Option.not_isSome, ← Option.not_isSome, kept]

theorem hazardous_footprint : ∀ rule ∈ hazardous, ∃ guards read shown,
    Footprint D rule.crashes guards read shown := by
  simp only [hazardous, List.forall_mem_cons]
  exact ⟨⟨_, _, _, equalBounds_crashes resemblance⟩, ⟨_, _, _, requiredCount_crashes resemblance⟩,
    ⟨_, _, _, duplicates_crashes resemblance _ _ _⟩, ⟨_, _, _, duplicates_crashes resemblance _ _ _⟩,
    ⟨_, _, _, duplicates_crashes resemblance _ _ _⟩, ⟨_, _, _, duplicates_crashes resemblance _ _ _⟩,
    List.forall_mem_nil _⟩

theorem integralBound_footprint (name keyword : String) (rounding : Rounding) :
    (integralBound name keyword rounding).Footprint D [validation] ["type", keyword] [] where
  guarded := by
    intro node context none
    simp only [integralBound, not_has_of_any none, Bool.false_and]
  congr := by
    intro x y context other alike same
    have fraction : (x.numberAt? keyword).any (!·.isIntegral) =
        (y.numberAt? keyword).any (!·.isIntegral) :=
      any_congr (resemblance.numberAt? (same.read keyword (by simp)))
        fun _ _ value => congrArg (!·) (resemblance.integral value)
    simp only [integralBound, Context.has_congr alike,
      resemblance.hasType (same.read "type" (by simp)), fraction]

end Collapse

namespace Pruning

include resemblance

theorem pinnedType?_congr {x y : Json} (type : Matches D x y "type")
    (enum : Matches D x y "enum") : pinnedType? x = pinnedType? y := by
  unfold pinnedType?
  rw [resemblance.declaredType? type, type.contains]
  rcases rel_cases (resemblance.arrayAt? enum) with ⟨left, right⟩ | ⟨as, bs, left, right, items⟩
  · rw [left, right]
  · rw [left, right]
    cases items with
    | nil => rfl
    | cons first rest =>
      have nulls := all_congr_of_forall₂ (.cons first rest) fun _ _ => resemblance.isNull
      have booleans : ∀ a b, D a b → a.bool?.isSome = b.bool?.isSome :=
        fun _ _ same => by rw [resemblance.bool? same]
      have bools := all_congr_of_forall₂ (.cons first rest) booleans
      dsimp only
      rw [nulls, bools]

theorem dropInapplicable_footprint (type : InstanceType) (family : Family) :
    (dropInapplicable type family).Footprint D family.vocabularies ["type", "enum"]
      (Keyword.inapplicable type family.vocabularies) where
  guarded := by
    intro node context none
    simp only [dropInapplicable, none, Bool.false_and]
  congr := by
    intro x y context other alike same
    have active : family.vocabularies.any context.has = family.vocabularies.any other.has :=
      congrArg family.vocabularies.any (funext (Context.has_congr alike))
    simp only [dropInapplicable, active, containsAny_congr same.shown,
      pinnedType?_congr resemblance (same.read "type" (by simp)) (same.read "enum" (by simp))]

end Pruning

namespace Defaults

theorem allTypes_footprint : allTypes.Footprint D [validation] [] typeConstraining where
  guarded := by
    intro node context none
    simp only [allTypes, not_has_of_any none, Bool.false_and]
  congr := by
    intro x y context other alike same
    simp only [allTypes, Context.has_congr alike, same.object, containsAny_congr same.shown]

include resemblance

theorem default_footprint (name : String) (type : InstanceType) (vocabulary keyword : String)
    (value : Json) :
    (default name type vocabulary keyword value).Footprint D [vocabulary] ["type"]
      ["enum", "const", keyword] where
  guarded := by
    intro node context none
    simp only [default, not_has_of_any none, Bool.false_and]
  congr := by
    intro x y context other alike same
    simp only [default, Context.has_congr alike,
      resemblance.hasType (same.read "type" (by simp)), containsAny_congr same.shown]

end Defaults

section All

include resemblance

theorem Redundancy.rules_footprint : ∀ rule ∈ rules, ∃ guards,
    rule.Footprint D guards Keyword.assertions (Keyword.assertions ++ Keyword.shown) := by
  simp only [rules, List.forall_mem_cons]
  refine ⟨?_, ?_, ?_, ?_, ?_, ?_, ?_, ?_, ?_, ?_, ?_, ?_, ?_, ?_, List.forall_mem_nil _⟩
  · exact ⟨_, (withoutCompanion_footprint ..).mono (by simp) (by simp [Keyword.shown_eq])⟩
  · exact ⟨_, (withoutCompanion_footprint ..).mono (by simp)
      (by simp [Keyword.shown_eq, Keyword.assertions_eq])⟩
  · exact ⟨_, (withoutCompanion_footprint ..).mono (by simp)
      (by simp [Keyword.shown_eq, Keyword.assertions_eq])⟩
  · exact ⟨_, (maxContainsAboveMaxItems_footprint resemblance).mono
      (by simp [Keyword.assertions_eq]) (by simp)⟩
  · exact ⟨_, (impliedUniqueItems_footprint resemblance).mono
      (by simp [Keyword.assertions_eq]) (by simp)⟩
  · exact ⟨_, ifWithoutBranches_footprint.mono (by simp) (by simp [Keyword.shown_eq])⟩
  · exact ⟨_, branchesWithoutIf_footprint.mono (by simp) (by simp [Keyword.shown_eq])⟩
  · exact ⟨_, (emptyObject_footprint _ _ (by simp)).mono (by simp) (by simp [Keyword.shown_eq])⟩
  · exact ⟨_, (emptyObject_footprint _ _ (by simp)).mono (by simp)
      (by simp [Keyword.assertions_eq])⟩
  · exact ⟨_, (tighterBound_footprint resemblance ..).mono (by simp [Keyword.assertions_eq])
      (by simp)⟩
  · exact ⟨_, (tighterBound_footprint resemblance ..).mono (by simp [Keyword.assertions_eq])
      (by simp)⟩
  · exact ⟨_, (constWithType_footprint resemblance).mono (by simp [Keyword.assertions_eq])
      (by simp)⟩
  · exact ⟨_, (enumWithType_footprint resemblance).mono (by simp [Keyword.assertions_eq])
      (by simp)⟩
  · exact ⟨_, (idleAssertionsBesideEnum_footprint resemblance).mono
      (by simp [Keyword.assertions_eq]) (by simp)⟩

theorem Spelling.rules_footprint : ∀ rule ∈ rules, ∃ guards,
    rule.Footprint D guards Keyword.assertions (Keyword.assertions ++ Keyword.shown) := by
  simp only [rules, List.forall_mem_cons]
  refine ⟨?_, ?_, ?_, ?_, ?_, ?_, ?_, List.forall_mem_nil _⟩
  · exact ⟨_, trueSchema_footprint.mono (by simp) (by simp)⟩
  · exact ⟨_, constAsEnum_footprint.mono (by simp) (by simp [Keyword.assertions_eq])⟩
  · exact ⟨_, (booleanAsEnum_footprint resemblance).mono (by simp [Keyword.assertions_eq])
      (by simp [Keyword.assertions_eq])⟩
  · exact ⟨_, (nullAsConst_footprint resemblance).mono (by simp [Keyword.assertions_eq])
      (by simp [Keyword.assertions_eq])⟩
  · exact ⟨_, (typeUnion_footprint resemblance).mono (by simp [Keyword.assertions_eq]) (by simp)⟩
  · exact ⟨_, (inclusiveBound_footprint resemblance ..).mono (by simp [Keyword.assertions_eq])
      (by simp [Keyword.assertions_eq])⟩
  · exact ⟨_, (inclusiveBound_footprint resemblance ..).mono (by simp [Keyword.assertions_eq])
      (by simp [Keyword.assertions_eq])⟩

theorem Collapse.rules_footprint : ∀ rule ∈ rules, rule ≠ duplicateAllOf →
    rule ≠ duplicateAnyOf → ∃ guards,
      rule.Footprint D guards Keyword.assertions (Keyword.assertions ++ Keyword.shown) := by
  simp only [rules, List.forall_mem_cons]
  refine ⟨?_, ?_, ?_, ?_, ?_, ?_, ?_, ?_, fun other => absurd rfl other,
    fun _ other => absurd rfl other, ?_, ?_, ?_, ?_, List.forall_mem_nil _⟩
  · exact fun _ _ => ⟨_, (singleType_footprint resemblance).mono (by simp [Keyword.assertions_eq])
      (by simp)⟩
  · exact fun _ _ => ⟨_, (constInEnum_footprint resemblance).mono
      (by simp [Keyword.assertions_eq]) (by simp)⟩
  · exact fun _ _ => ⟨_, (equalBounds_footprint resemblance).mono
      (by simp [Keyword.assertions_eq]) (by simp [Keyword.assertions_eq])⟩
  · exact fun _ _ => ⟨_, (emptyString_footprint resemblance).mono
      (by simp [Keyword.assertions_eq]) (by simp [Keyword.assertions_eq])⟩
  · exact fun _ _ => ⟨_, (emptyArray_footprint resemblance).mono
      (by simp [Keyword.assertions_eq]) (by simp [Keyword.assertions_eq, Keyword.shown_eq])⟩
  · exact fun _ _ => ⟨_, (emptyObject_footprint resemblance).mono
      (by simp [Keyword.assertions_eq]) (by simp [Keyword.assertions_eq])⟩
  · exact fun _ _ => ⟨_, (requiredDependencies_footprint resemblance).mono
      (by simp [Keyword.assertions_eq]) (by simp)⟩
  · exact fun _ _ => ⟨_, (requiredCount_footprint resemblance).mono
      (by simp [Keyword.assertions_eq]) (by simp)⟩
  · exact fun _ _ => ⟨_, (duplicates_footprint resemblance ..).mono
      (by simp [Keyword.assertions_eq]) (by simp)⟩
  · exact fun _ _ => ⟨_, (duplicates_footprint resemblance ..).mono
      (by simp [Keyword.assertions_eq]) (by simp)⟩
  · exact fun _ _ => ⟨_, (integralBound_footprint resemblance ..).mono
      (by simp [Keyword.assertions_eq]) (by simp)⟩
  · exact fun _ _ => ⟨_, (integralBound_footprint resemblance ..).mono
      (by simp [Keyword.assertions_eq]) (by simp)⟩

omit resemblance in
theorem Pruning.inapplicable_subset {type : InstanceType} (known : type ∈ InstanceType.all)
    {family : Family} (listed : family ∈ families) :
    Keyword.inapplicable type family.vocabularies ⊆ Keyword.assertions ++ Keyword.shown := by
  have annotations : ∀ keyword ∈ Keyword.all, keyword.instanceTypes ≠ [] →
      keyword.vocabulary ≠ metaData ∧ keyword.role ≠ .comment := by decide +kernel
  intro name dropped
  obtain ⟨_, keyword, tabled, rfl, idle⟩ := keyword_of_mem_inapplicable type known family listed
    name dropped
  have typed : keyword.instanceTypes ≠ [] := by
    intro untyped
    rw [Keyword.appliesTo, untyped, List.isEmpty_nil, Bool.true_or] at idle
    cases idle
  obtain ⟨described, commented⟩ := annotations keyword tabled typed
  rw [List.mem_append]
  by_cases validated : keyword.vocabulary = validation
  · refine .inl (List.mem_map_of_mem (List.mem_filter.mpr ⟨tabled, ?_⟩))
    rw [validated, beq_self_eq_true]
  · refine .inr (List.mem_map_of_mem (List.mem_filter.mpr ⟨tabled, ?_⟩))
    simp [validated, described, commented]

theorem Pruning.rules_footprint : ∀ rule ∈ rules, ∃ guards,
    rule.Footprint D guards Keyword.assertions (Keyword.assertions ++ Keyword.shown) := by
  intro rule listed
  obtain ⟨type, known, listed⟩ := List.mem_flatMap.mp listed
  obtain ⟨family, chosen, rfl⟩ := List.mem_map.mp listed
  exact ⟨_, (dropInapplicable_footprint resemblance type family).mono
    (by simp [Keyword.assertions_eq]) (inapplicable_subset known (List.mem_filter.mp chosen).1)⟩

theorem Defaults.rules_footprint : ∀ rule ∈ rules, ∃ guards,
    rule.Footprint D guards Keyword.assertions (Keyword.assertions ++ Keyword.shown) := by
  simp only [rules, List.forall_mem_cons]
  refine ⟨?_, ?_, ?_, ?_, ?_, ?_, ?_, List.forall_mem_nil _⟩
  · exact ⟨_, allTypes_footprint.mono (by simp)
      (by simp [typeConstraining, Keyword.assertions_eq, Keyword.shown_eq])⟩
  · exact ⟨_, (default_footprint resemblance ..).mono (by simp [Keyword.assertions_eq])
      (by simp [Keyword.assertions_eq])⟩
  · exact ⟨_, (default_footprint resemblance ..).mono (by simp [Keyword.assertions_eq])
      (by simp [Keyword.assertions_eq])⟩
  · exact ⟨_, (default_footprint resemblance ..).mono (by simp [Keyword.assertions_eq])
      (by simp [Keyword.assertions_eq])⟩
  · exact ⟨_, (default_footprint resemblance ..).mono (by simp [Keyword.assertions_eq])
      (by simp [Keyword.assertions_eq])⟩
  · exact ⟨_, (default_footprint resemblance ..).mono (by simp [Keyword.assertions_eq])
      (by simp [Keyword.assertions_eq])⟩
  · exact ⟨_, (default_footprint resemblance ..).mono (by simp [Keyword.assertions_eq])
      (by simp [Keyword.assertions_eq, Keyword.shown_eq])⟩

/-- Rules go by the assertions of a node and by what is there besides annotations. -/
theorem canonicalRules_footprint : ∀ rule ∈ canonicalRules, rule ≠ Collapse.duplicateAllOf →
    rule ≠ Collapse.duplicateAnyOf → ∃ guards,
      rule.Footprint D guards Keyword.assertions (Keyword.assertions ++ Keyword.shown) := by
  intro rule listed all any
  simp only [canonicalRules, List.mem_append] at listed
  rcases listed with (((listed | listed) | listed) | listed) | listed
  · exact Redundancy.rules_footprint resemblance rule listed
  · exact Spelling.rules_footprint resemblance rule listed
  · exact Collapse.rules_footprint resemblance rule listed all any
  · exact Pruning.rules_footprint resemblance rule listed
  · exact Defaults.rules_footprint resemblance rule listed

end All

end Rules

end SchemaPack
