import SchemaPack.Proofs.Canonical.Stutter
import SchemaPack.Proofs.Canonical.Termination
import SchemaPack.Proofs.Json.Precise
import SchemaPack.Proofs.Rules.Parts

namespace SchemaPack

open Json

def Covers (S : Json → Json → Prop) (as bs : List Json) : Prop :=
  (∀ a ∈ as, ∃ b ∈ bs, S a b) ∧ ∀ b ∈ bs, ∃ a ∈ as, S a b

structure Paired (S : Json → Json → Prop) (members others : Members) : Prop where
  left : (members.map (·.1)).Nodup
  right : (others.map (·.1)).Nodup
  values : ∀ name, Option.Rel S (members.get? name) (others.get? name)

theorem Paired.isEmpty {S : Json → Json → Prop} {members others : Members}
    (paired : Paired S members others) : members.isEmpty = others.isEmpty := by
  have first : ∀ (entry : String × Json) (rest : Members),
      Members.get? (entry :: rest) entry.1 = some entry.2 := by
    intro entry rest
    rw [Members.get?_cons, if_pos rfl]
  cases members with
  | nil =>
    cases others with
    | nil => rfl
    | cons entry rest =>
      have related := paired.values entry.1
      rw [first] at related
      cases related
  | cons entry rest =>
    cases others with
    | nil =>
      have related := paired.values entry.1
      rw [first] at related
      cases related
    | cons => rfl

/-- Values with related subschemas in a role. Lists may have them in any order and number. -/
def Inside (S : Json → Json → Prop) : Role → Json → Json → Prop
  | .subschema, v, w => S v w
  | .subschemaList, v, w => Option.Rel (Covers S) v.items? w.items?
  | .subschemaMap, v, w => Option.Rel (Paired S) v.members? w.members?
  | _, _, _ => True

namespace Inside

variable {S T U : Json → Json → Prop} {role : Role} {u v w : Json}

theorem mono (weaker : ∀ a b, S a b → T a b) (inside : Inside S role v w) :
    Inside T role v w := by
  cases role with
  | subschema => exact weaker _ _ inside
  | subschemaList =>
    exact rel_mono inside fun covers =>
      ⟨fun a listed => (covers.1 a listed).imp fun b => And.imp_right (weaker a b),
        fun b listed => (covers.2 b listed).imp fun a => And.imp_right (weaker a b)⟩
  | subschemaMap =>
    exact rel_mono inside fun paired =>
      ⟨paired.left, paired.right, fun name => rel_mono (paired.values name) (weaker _ _)⟩
  | identity | reference | comment | assertion | descriptive => trivial

theorem symm (turns : ∀ a b, S a b → T b a) (inside : Inside S role v w) :
    Inside T role w v := by
  cases role with
  | subschema => exact turns _ _ inside
  | subschemaList =>
    exact rel_symm inside fun covers =>
      ⟨fun b listed => (covers.2 b listed).imp fun a => And.imp_right (turns a b),
        fun a listed => (covers.1 a listed).imp fun b => And.imp_right (turns a b)⟩
  | subschemaMap =>
    exact rel_symm inside fun paired =>
      ⟨paired.right, paired.left, fun name => rel_symm (paired.values name) (turns _ _)⟩
  | identity | reference | comment | assertion | descriptive => trivial

theorem trans (composes : ∀ a b c, S a b → T b c → U a c) (first : Inside S role u v)
    (second : Inside T role v w) : Inside U role u w := by
  cases role with
  | subschema => exact composes _ _ _ first second
  | subschemaList =>
    refine rel_trans first second ?_
    intro as bs cs one two
    constructor
    · intro a listed
      obtain ⟨b, between, before⟩ := one.1 a listed
      obtain ⟨c, last, after⟩ := two.1 b between
      exact ⟨c, last, composes a b c before after⟩
    · intro c listed
      obtain ⟨b, between, after⟩ := two.2 c listed
      obtain ⟨a, last, before⟩ := one.2 b between
      exact ⟨a, last, composes a b c before after⟩
  | subschemaMap =>
    refine rel_trans first second ?_
    intro ms ns ks one two
    exact ⟨one.left, two.right,
      fun name => rel_trans (one.values name) (two.values name) composes⟩
  | identity | reference | comment | assertion | descriptive => trivial

theorem refl (each : ∀ a : Json, a.Distinct → a.Precise → S a a) (distinct : v.Distinct)
    (precise : v.Precise) : Inside S role v v := by
  cases role with
  | subschema => exact each v distinct precise
  | subschemaList =>
    cases v with
    | array items =>
      rw [distinct_array] at distinct
      rw [precise_array] at precise
      have same := fun item listed => each item (distinct item listed) (precise item listed)
      exact .some ⟨fun item listed => ⟨item, listed, same item listed⟩,
        fun item listed => ⟨item, listed, same item listed⟩⟩
    | null | bool | number | string | object => exact .none
  | subschemaMap =>
    cases v with
    | object members =>
      have names := (distinct_object.mp distinct).1
      refine .some ⟨names, names, fun name => rel_refl fun value found => ?_⟩
      exact each value (distinct.get? found) (precise.get? found)
    | null | bool | number | string | array => exact .none
  | identity | reference | comment | assertion | descriptive => trivial

theorem of_equal {u' : Json} (first : Inside S role v u) (second : Inside T role w u')
    (same : compare v w = .eq) :
    Inside (fun a b => compare a b = .eq ∧ (∃ a', S a a') ∧ ∃ b', T b b') role v w := by
  have kindred := kindred_of_compare same
  cases role with
  | subschema => exact ⟨same, ⟨u, first⟩, u', second⟩
  | subschemaList =>
    cases kindred with
    | array as bs =>
      obtain ⟨as', _, left⟩ := rel_some first
      obtain ⟨bs', _, right⟩ := rel_some second
      have before : ∀ a ∈ as, ∃ a', S a a' :=
        fun a listed => (left.1 a listed).imp fun _ => And.right
      have after : ∀ b ∈ bs, ∃ b', T b b' :=
        fun b listed => (right.1 b listed).imp fun _ => And.right
      have items := compare_array same
      refine .some ⟨?_, ?_⟩
      · intro a listed
        have flipped := List.Forall₂.flip (R := fun b a => compare a b = .eq) items
        obtain ⟨b, also, equal⟩ := exists_of_forall₂ flipped listed
        exact ⟨b, also, equal, before a listed, after b also⟩
      · intro b listed
        obtain ⟨a, also, equal⟩ := exists_of_forall₂ items listed
        exact ⟨a, also, equal, before a also, after b listed⟩
    | null | bool | number | string | object => exact .none
  | subschemaMap =>
    cases kindred with
    | object ms ns =>
      obtain ⟨ms', _, left⟩ := rel_some first
      obtain ⟨ns', _, right⟩ := rel_some second
      refine .some ⟨left.left, right.left, ?_⟩
      intro name
      refine rel_imp (compare_get? left.left right.left same name) ?_
      intro a b here there equal
      obtain ⟨a', _, before⟩ := rel_some (here ▸ left.values name)
      obtain ⟨b', _, after⟩ := rel_some (there ▸ right.values name)
      exact ⟨equal, ⟨a', before⟩, b', after⟩
    | null | bool | number | string | array => exact .none
  | identity | reference | comment | assertion | descriptive => trivial

end Inside

/-- The keywords whose values count as data. -/
def Keyword.data : List String := "$schema" :: assertions

/-- Relates values by one relation where they are data, and by another where their keyword shows.
    Annotations may be anything. -/
def Tolerance.across (D : Json → Json → Prop) (I : String → Json → Json → Prop) : Tolerance :=
  fun name a b =>
    if name ∈ Keyword.data then Option.Rel D a b
    else name ∈ Keyword.shown → Option.Rel (I name) a b

namespace Tolerance

variable {D : Json → Json → Prop} {I : String → Json → Json → Prop} {name : String}
  {a b c : Option Json}

theorem across_data (data : name ∈ Keyword.data) : across D I name a b ↔ Option.Rel D a b := by
  rw [across, if_pos data]

theorem across_shown (plain : name ∉ Keyword.data) (shown : name ∈ Keyword.shown) :
    across D I name a b ↔ Option.Rel (I name) a b := by
  rw [across, if_neg plain]
  exact ⟨fun related => related shown, fun related _ => related⟩

theorem across_intro (data : name ∈ Keyword.data → Option.Rel D a b)
    (shown : name ∈ Keyword.shown → name ∉ Keyword.data → Option.Rel (I name) a b) :
    across D I name a b := by
  by_cases given : name ∈ Keyword.data
  · exact (across_data given).mpr (data given)
  · rw [across, if_neg given]
    exact fun present => shown present given

theorem across_mono {J : String → Json → Json → Prop} (weaker : ∀ v w, I name v w → J name v w)
    (tolerated : across D I name a b) : across D J name a b :=
  across_intro (fun data => (across_data data).mp tolerated) fun shown plain =>
    rel_mono ((across_shown plain shown).mp tolerated) (weaker _ _)

theorem across_symm {J : String → Json → Json → Prop} (data : ∀ v w, D v w → D w v)
    (turns : ∀ v w, I name v w → J name w v) (tolerated : across D I name a b) :
    across D J name b a :=
  across_intro (fun given => rel_symm ((across_data given).mp tolerated) (data _ _))
    fun shown plain => rel_symm ((across_shown plain shown).mp tolerated) (turns _ _)

theorem across_trans {J K : String → Json → Json → Prop} (data : ∀ u v w, D u v → D v w → D u w)
    (composes : ∀ u v w, I name u v → J name v w → K name u w) (first : across D I name a b)
    (second : across D J name b c) : across D K name a c :=
  across_intro
    (fun given => rel_trans ((across_data given).mp first) ((across_data given).mp second) data)
    fun shown plain =>
      rel_trans ((across_shown plain shown).mp first) ((across_shown plain shown).mp second)
        composes

theorem across_fair (resemblance : Resemblance D)
    (hollow : ∀ v w, I "patternProperties" v w → v.isHollow = w.isHollow)
    (empty : I "properties" .emptyObject .emptyObject) : Fair D (across D I) where
  none := fun _ => across_intro (fun _ => .none) fun _ _ => .none
  data := fun _ asserted _ _ => across_data (List.mem_cons_of_mem _ asserted)
  shown := by
    intro name shown a b tolerated
    by_cases data : name ∈ Keyword.data
    · exact rel_mono ((across_data data).mp tolerated) (resemblance.shaped name)
    · refine rel_mono ((across_shown data shown).mp tolerated) ?_
      intro v w related emptiable
      -- the other keyword that does nothing when it is empty is data
      rcases List.mem_cons.mp emptiable with rfl | other
      · exact hollow v w related
      · rw [List.mem_singleton.mp other] at data
        exact absurd (by decide) data
  properties := across_intro (fun data => absurd data (by decide)) fun _ _ => .some empty

end Tolerance

/-- Tolerates any annotation, and takes related subschemas for the same. -/
def Tolerance.upTo (S : Json → Json → Prop) : Tolerance :=
  across Interchangeable fun name => Inside S (Keyword.roleOf name)

theorem Tolerance.upTo_fair (S : Json → Json → Prop) : Fair Interchangeable (upTo S) := by
  apply across_fair resemblance_interchangeable
  · intro v w inside
    have paired : Option.Rel (Paired S) v.members? w.members? := inside
    exact any_congr paired fun _ _ => Paired.isEmpty
  · exact .some ⟨List.nodup_nil, List.nodup_nil, fun _ => .none⟩

theorem Tolerance.upTo_mono {S T : Json → Json → Prop} (weaker : ∀ a b, S a b → T a b)
    {name : String} {a b : Option Json} (tolerated : upTo S name a b) : upTo T name a b :=
  across_mono (fun _ _ => Inside.mono weaker) tolerated

theorem Tolerance.upTo_symm {S T : Json → Json → Prop} (turns : ∀ a b, S a b → T b a)
    {name : String} {a b : Option Json} (tolerated : upTo S name a b) : upTo T name b a :=
  across_symm (fun _ _ => Interchangeable.symm) (fun _ _ => Inside.symm turns) tolerated

/-- Nodes that canonicalization takes for the same as long as nobody reads their annotations: the
    largest relation that holds of two nodes only if it holds of the subschemas in them. -/
def Counterpart (x y : Json) : Prop :=
  ∃ S : Json → Json → Prop, (∀ a b, S a b → Akin (.upTo S) a b) ∧ S x y

theorem Akin.mono {first second : Tolerance} {x y : Json}
    (weaker : ∀ name a b, first name a b → second name a b) (akin : Akin first x y) :
    Akin second x y where
  object := akin.object
  truth := akin.truth
  parallel := by
    intro object
    obtain ⟨left, right, names, others, values⟩ := akin.parallel object
    exact ⟨left, right, names, others, fun name => weaker name _ _ (values name)⟩

namespace Counterpart

variable {x y z : Json}

theorem akin (same : Counterpart x y) : Akin (.upTo Counterpart) x y := by
  obtain ⟨S, steps, related⟩ := same
  exact (steps x y related).mono fun _ _ _ => Tolerance.upTo_mono fun _ _ more => ⟨S, steps, more⟩

theorem of_akin (same : Akin (.upTo Counterpart) x y) : Counterpart x y := by
  refine ⟨Akin (.upTo Counterpart), ?_, same⟩
  exact fun _ _ same => same.mono fun _ _ _ => Tolerance.upTo_mono fun _ _ => akin

theorem refl (distinct : x.Distinct) (precise : x.Precise) : Counterpart x x := by
  refine ⟨fun a b => a = b ∧ a.Distinct ∧ a.Precise, ?_, rfl, distinct, precise⟩
  rintro a _ ⟨rfl, distinct, precise⟩
  refine ⟨rfl, rfl, fun object => ?_⟩
  obtain ⟨members, rfl⟩ := eq_object_of_isObject object
  have names := (distinct_object.mp distinct).1
  refine ⟨rfl, rfl, names, names, fun name => ?_⟩
  refine Tolerance.across_intro (fun _ => rel_refl fun v found => ?_) fun _ _ =>
    rel_refl fun v found => ?_
  · exact .refl (distinct.get? found) (precise.get? found)
  · exact .refl (fun a one two => ⟨rfl, one, two⟩) (distinct.get? found) (precise.get? found)

theorem symm (same : Counterpart x y) : Counterpart y x := by
  refine ⟨fun a b => Counterpart b a, ?_, same⟩
  intro a b same
  have akin := same.akin
  refine ⟨akin.object.symm, akin.truth.symm, fun object => ?_⟩
  obtain ⟨left, right, names, others, values⟩ := akin.parallel (akin.object.trans object)
  exact ⟨right, left, others, names, fun name => Tolerance.upTo_symm (fun _ _ => id) (values name)⟩

theorem trans (first : Counterpart x y) (second : Counterpart y z) : Counterpart x z := by
  refine ⟨fun a c => ∃ b, Counterpart a b ∧ Counterpart b c, ?_, y, first, second⟩
  rintro a c ⟨b, before, after⟩
  have left := before.akin
  have right := after.akin
  refine ⟨left.object.trans right.object, left.truth.trans right.truth, fun object => ?_⟩
  have one := left.parallel object
  have two := right.parallel one.right
  exact ⟨one.left, two.right, one.names, two.others, fun name =>
    Tolerance.across_trans (fun _ _ _ => Interchangeable.trans)
      (fun _ _ _ => Inside.trans fun _ b _ before after => ⟨b, before, after⟩) (one.values name)
      (two.values name)⟩

theorem of_equal {x' y' : Json} (first : Counterpart x x') (second : Counterpart y y')
    (same : compare x y = .eq) : Counterpart x y := by
  refine ⟨fun a b => compare a b = .eq ∧ (∃ a', Counterpart a a') ∧ ∃ b', Counterpart b b', ?_,
    same, ⟨x', first⟩, y', second⟩
  rintro a b ⟨equal, ⟨a', before⟩, b', after⟩
  have kindred := kindred_of_compare equal
  cases kindred with
  | object ms ns =>
    have left := before.akin.parallel rfl
    have right := after.akin.parallel rfl
    refine ⟨rfl, rfl, fun _ => ⟨rfl, rfl, left.names, right.names, fun name => ?_⟩⟩
    rcases rel_cases (compare_get? left.names right.names equal name) with
      ⟨here, there⟩ | ⟨v, w, here, there, values⟩
    · rw [get?_object, get?_object, here, there]
      exact (Tolerance.upTo_fair _).none name
    · have one := left.values name
      have two := right.values name
      rw [get?_object] at one two ⊢
      rw [get?_object, there]
      rw [here] at one ⊢
      rw [there] at two
      refine Tolerance.across_intro (fun data => ?_) fun shown plain => ?_
      · obtain ⟨v', _, known⟩ := rel_some ((Tolerance.across_data data).mp one)
        obtain ⟨w', _, also⟩ := rel_some ((Tolerance.across_data data).mp two)
        exact .some (.of_compare known.respelled.left also.respelled.left known.left also.left
          values)
      · obtain ⟨v', _, known⟩ := rel_some ((Tolerance.across_shown plain shown).mp one)
        obtain ⟨w', _, also⟩ := rel_some ((Tolerance.across_shown plain shown).mp two)
        exact .some (known.of_equal also values)
  | bool v w =>
    rw [Std.compare_eq_iff_eq.mp (equal : Ord.compare v w = .eq)]
    exact ⟨rfl, rfl, nofun⟩
  | null | number | string | array => exact ⟨rfl, rfl, nofun⟩

end Counterpart

/-- A branch that is dropped leaves a counterpart behind. -/
theorem Covers.sortUnique {as bs kept : List Json} (ran : Json.sortUnique as = some kept)
    (covers : Covers Counterpart as bs) : Covers Counterpart kept bs := by
  constructor
  · exact fun a listed => covers.1 a (mem_of_mem_sortUnique ran listed)
  · intro b listed
    obtain ⟨a, present, same⟩ := covers.2 b listed
    obtain ⟨other, stays, equal⟩ := exists_mem_sortUnique ran present
    obtain ⟨partner, _, known⟩ := covers.1 other (mem_of_mem_sortUnique ran stays)
    have left := Counterpart.of_equal same known (beq_iff_eq.mp equal)
    exact ⟨other, stays, left.symm.trans same⟩

theorem Tolerance.upTo_branches {S : Json → Json → Prop} {name : String}
    (branching : name ∈ ["allOf", "anyOf"]) {a b : Option Json} :
    upTo S name a b ↔
      Option.Rel (fun v w => Option.Rel (Covers S) v.items? w.items?) a b := by
  have facts : ∀ name ∈ ["allOf", "anyOf"], name ∉ Keyword.data ∧ name ∈ Keyword.shown ∧
      Keyword.roleOf name = .subschemaList := by decide +kernel
  obtain ⟨plain, shown, role⟩ := facts name branching
  rw [upTo, across_shown plain shown, role]
  exact Iff.rfl

theorem Tolerance.upTo_sortUnique {name : String} (branching : name ∈ ["allOf", "anyOf"])
    {items kept : List Json} (ran : Json.sortUnique items = some kept) {b : Option Json}
    (tolerated : upTo Counterpart name (some (.array items)) b) :
    upTo Counterpart name (some (.array kept)) b := by
  obtain ⟨w, rfl, lists⟩ := rel_some ((upTo_branches branching).mp tolerated)
  obtain ⟨bs, found, covers⟩ := rel_some lists
  refine (upTo_branches branching).mpr (.some ?_)
  rw [found]
  exact .some (covers.sortUnique ran)

theorem counterpart_lenient : (Tolerance.upTo Counterpart).Lenient Interchangeable where
  toFair := Tolerance.upTo_fair Counterpart
  dialect := fun _ _ => (Tolerance.across_data List.mem_cons_self).mp
  branches := by
    intro as bs branches
    have related : List.Forall₂ Counterpart as bs :=
      branches.imp fun _ _ parallel => .of_akin parallel.akin
    have flipped := List.Forall₂.flip (R := fun b a => Counterpart a b) related
    refine (Tolerance.upTo_branches (by simp)).mpr (.some (.some ⟨?_, ?_⟩))
    · exact fun a listed => exists_of_forall₂ flipped listed
    · exact fun b listed => exists_of_forall₂ related listed
  left := fun _ branching _ _ _ ran => Tolerance.upTo_sortUnique branching ran
  right := by
    intro name branching a items kept ran tolerated
    have turns : ∀ a b, Counterpart a b → Counterpart b a := fun _ _ => Counterpart.symm
    exact Tolerance.upTo_symm turns
      (Tolerance.upTo_sortUnique branching ran (Tolerance.upTo_symm turns tolerated))

end SchemaPack
