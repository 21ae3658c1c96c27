import Mathlib.Data.List.Find
import SchemaPack.Proofs.Json.Respelling
import SchemaPack.Proofs.Rules.Memory

namespace SchemaPack

open Json

/-- Two computations that fail both, or give related values after as many applications. -/
inductive Traced.Lockstep {α β : Type} (R : α → β → Prop) (x : Traced α) (y : Traced β) : Prop
  | success {a : α} {b : β} (left : x.result = .ok a) (right : y.result = .ok b)
      (related : R a b) (even : x.applications = y.applications)
  | failure {stop other : Stop} (left : x.result = .error stop) (right : y.result = .error other)

namespace Traced.Lockstep

variable {α β γ δ : Type} {R : α → β → Prop} {S : γ → δ → Prop}

theorem pure {a : α} {b : β} (related : R a b) :
    Lockstep R (Pure.pure a : Traced α) (Pure.pure b) :=
  .success rfl rfl related rfl

theorem stop (stop other : Stop) : Lockstep R (Traced.stop stop) (Traced.stop other) :=
  .failure rfl rfl

theorem refl {R : α → α → Prop} (reflexive : ∀ a, R a a) (x : Traced α) : Lockstep R x x := by
  cases given : x.result with
  | ok a => exact .success given given (reflexive a) rfl
  | error stop => exact .failure given given

theorem emit {event other : Event} (even : event.isApplication = other.isApplication) :
    Lockstep (fun _ _ => True) (Traced.emit event) (Traced.emit other) := by
  refine .success rfl rfl trivial ?_
  rw [applications, applications, emit_events, emit_events, List.countP_singleton,
    List.countP_singleton, even]

theorem bind {x : Traced α} {y : Traced β} {f : α → Traced γ} {g : β → Traced δ}
    (first : Lockstep R x y) (next : ∀ a b, R a b → Lockstep S (f a) (g b)) :
    Lockstep S (x >>= f) (y >>= g) := by
  cases first with
  | failure left right =>
    exact .failure (by rw [bind_error left]) (by rw [bind_error right])
  | @success a b left right related even =>
    have before := bind_applications left f
    have after := bind_applications right g
    cases next a b related with
    | failure left' right' =>
      exact .failure (by rw [bind_ok left, left']) (by rw [bind_ok right, right'])
    | success left' right' related' even' =>
      refine .success (by rw [bind_ok left, left']) (by rw [bind_ok right, right']) related' ?_
      rw [before, after, even, even']

theorem trans {T : α → δ → Prop} {U : β → δ → Prop} {x : Traced α} {y : Traced β} {z : Traced δ}
    (first : Lockstep R x y) (second : Lockstep U y z)
    (compose : ∀ a b c, R a b → U b c → T a c) : Lockstep T x z := by
  cases first with
  | failure left right =>
    cases second with
    | failure _ right' => exact .failure left right'
    | success left' => cases right.symm.trans left'
  | success left right related even =>
    cases second with
    | failure left' => cases right.symm.trans left'
    | success left' right' related' even' =>
      cases right.symm.trans left'
      exact .success left right' (compose _ _ _ related related') (even.trans even')

theorem mono {T : α → β → Prop} {x : Traced α} {y : Traced β} (step : Lockstep R x y)
    (weaker : ∀ a b, R a b → T a b) : Lockstep T x y := by
  cases step with
  | failure left right => exact .failure left right
  | success left right related even => exact .success left right (weaker _ _ related) even

theorem swap (x : Traced α) (y : Traced β) {f : α → β → Traced γ} {g : α → β → Traced δ}
    (next : ∀ a b, Lockstep S (f a b) (g a b)) :
    Lockstep S (x >>= fun a => y >>= f a) (y >>= fun b => x >>= fun a => g a b) := by
  cases first : x.result with
  | error stop =>
    cases second : y.result with
    | error other => exact .failure (by rw [bind_error first]) (by rw [bind_error second])
    | ok b => exact .failure (by rw [bind_error first]) (by rw [bind_ok second, bind_error first])
  | ok a =>
    cases second : y.result with
    | error other =>
      exact .failure (by rw [bind_ok first, bind_error second]) (by rw [bind_error second])
    | ok b =>
      have left := bind_applications first fun a => y >>= f a
      have right := bind_applications second fun b => x >>= fun a => g a b
      rw [bind_applications second] at left
      rw [bind_applications first] at right
      cases next a b with
      | failure here there =>
        exact .failure (by rw [bind_ok first, bind_ok second, here])
          (by rw [bind_ok second, bind_ok first, there])
      | success here there related even =>
        refine .success (by rw [bind_ok first, bind_ok second, here])
          (by rw [bind_ok second, bind_ok first, there]) related ?_
        rw [left, right, even]
        omega

theorem isOk_iff {x : Traced α} {y : Traced β} (step : Lockstep R x y) :
    (∃ a, x.result = .ok a) ↔ ∃ b, y.result = .ok b := by
  cases step with
  | success left right => exact ⟨fun _ => ⟨_, right⟩, fun _ => ⟨_, left⟩⟩
  | failure left right =>
    rw [left, right]
    exact ⟨nofun, nofun⟩

theorem related {x : Traced α} {y : Traced β} (step : Lockstep R x y) {a : α} {b : β}
    (left : x.result = .ok a) (right : y.result = .ok b) : R a b := by
  cases step with
  | success here there related =>
    cases here.symm.trans left
    cases there.symm.trans right
    exact related
  | failure here => cases here.symm.trans left

end Traced.Lockstep

/-- A rule that applies to both of two related nodes or to neither, and leaves related nodes. -/
structure Rule.Respects (D : Json → Json → Prop) (rule : Rule) : Prop where
  condition : ∀ x y context, D x y → rule.condition x context = rule.condition y context
  crashes : ∀ x y context, D x y → rule.crashes x context = rule.crashes y context
  transform : ∀ x y context, D x y → rule.condition x context = true →
    D (rule.transform x) (rule.transform y)

theorem first_congr_of_respects {D : Json → Json → Prop} {rules : List Rule}
    (respects : ∀ rule ∈ rules, rule.Respects D) {x y : Json} (same : D x y) (context : Context) :
    Rule.first x context rules = Rule.first y context rules := by
  induction rules with
  | nil => rfl
  | cons rule rest ih =>
    obtain ⟨here, later⟩ := List.forall_mem_cons.mp respects
    rw [Rule.first, Rule.first, here.crashes x y context same, here.condition x y context same,
      ih later]

namespace Json.Resemblance

variable {D : Json → Json → Prop} (resemblance : Resemblance D) {x y : Json} (same : D x y)
include resemblance same

theorem matches_of (name : String) : Matches D x y name := by
  cases resemblance.kindred same with
  | object => exact resemblance.get? same name
  | null | bool | number | string | array => exact .none

theorem declared? : Dialect.declared? x = Dialect.declared? y := by
  have strings := rel_bind (resemblance.matches_of same "$schema")
    (f := Json.string?) (S := Eq) fun a b same => by
      rw [resemblance.string? same]
      exact rel_refl fun _ _ => rfl
  exact eq_of_rel_eq strings

theorem contextOf (resolver : Resolver) (inherited : String) (pointer : Pointer) :
    Context.of resolver inherited pointer x = Context.of resolver inherited pointer y := by
  rw [Context.of, Context.of, Dialect.ofNode, Dialect.ofNode, resemblance.declared? same]

end Json.Resemblance

def Members.Aligned (D : Json → Json → Prop) (members others : Members) : Prop :=
  List.Forall₂ (fun entry other => entry.1 = other.1 ∧ D entry.2 other.2) members others

theorem Members.Aligned.names {D : Json → Json → Prop} {members others : Members}
    (aligned : Aligned D members others) : members.map (·.1) = others.map (·.1) :=
  map_congr_of_forall₂ aligned fun _ _ same => same.1

theorem Members.Aligned.get? {D : Json → Json → Prop} {members others : Members}
    (aligned : Aligned D members others) (name : String) :
    Option.Rel D (Members.get? members name) (Members.get? others name) := by
  induction aligned with
  | nil => exact .none
  | @cons entry other _ _ here _ ih =>
    rw [Members.get?_cons, Members.get?_cons, ← here.1]
    split
    · exact .some here.2
    · exact ih

namespace Json.Respelled

variable {f : Number → Number} {members others : Members}

theorem aligned (same : Respelled f (.object members) (.object others)) :
    ∃ arranged, others.Perm arranged ∧ Members.Aligned (Respelled f) members arranged := by
  have left := (distinct_object.mp same.left).1
  have right := (distinct_object.mp same.right).1
  have partner : ∀ entry ∈ members, ∃ other,
      Members.get? others entry.1 = some other ∧ Respelled f entry.2 other := by
    intro entry listed
    rcases rel_cases (same.get? entry.1) with ⟨here, _⟩ | ⟨a, b, here, there, related⟩
    · cases here.symm.trans ((Members.mem_iff_get? left).mp listed)
    · cases here.symm.trans ((Members.mem_iff_get? left).mp listed)
      exact ⟨b, there, related⟩
  let arranged : Members :=
    members.map fun entry => (entry.1, (Members.get? others entry.1).getD .null)
  have names : arranged.map (·.1) = members.map (·.1) := by
    rw [List.map_map]
    rfl
  refine ⟨arranged, ?_, ?_⟩
  · have once : (arranged.map (·.1)).Nodup := names ▸ left
    rw [List.perm_ext_iff_of_nodup (.of_map _ right) (.of_map _ once)]
    intro entry
    rw [Members.mem_iff_get? right]
    constructor
    · intro found
      rcases rel_cases (same.get? entry.1) with ⟨_, there⟩ | ⟨a, b, here, there, _⟩
      · cases there.symm.trans found
      · refine List.mem_map.mpr ⟨(entry.1, a), Members.mem_of_get? here, ?_⟩
        rw [found, Option.getD_some]
    · intro listed
      obtain ⟨source, from_members, rfl⟩ := List.mem_map.mp listed
      obtain ⟨other, found, _⟩ := partner source from_members
      rw [found, Option.getD_some]
  · rw [Members.Aligned, List.forall₂_map_right_iff, List.forall₂_same]
    intro entry listed
    obtain ⟨other, found, related⟩ := partner entry listed
    rw [found]
    exact ⟨rfl, related⟩

theorem of_aligned {arranged : Members} (distinct : (members.map (·.1)).Nodup)
    (aligned : Members.Aligned (Respelled f) members arranged) (perm : others.Perm arranged) :
    Respelled f (.object members) (.object others) := by
  have once : (arranged.map (·.1)).Nodup := aligned.names ▸ distinct
  have right : (others.map (·.1)).Nodup := (perm.map _).nodup_iff.mpr once
  apply Respelled.object distinct right
  intro name
  rw [Members.get?_perm right perm]
  exact aligned.get? name

end Json.Respelled

namespace Fresh

section Children

variable {visit : String → Json → Traced Json} {look : Pointer → Json → Traced Json}
  {stop : Stop}

theorem visitMembers_get? {members results : Members}
    (h : (visitMembers visit members).result = .ok results) (name : String) :
    Option.Rel (fun value result => (visit name value).result = .ok result)
      (members.get? name) (results.get? name) := by
  induction members generalizing results with
  | nil =>
    cases h
    exact .none
  | cons entry rest ih =>
    rw [visitMembers] at h
    obtain ⟨value, first, later⟩ := Traced.bind_result_ok h
    obtain ⟨others, second, last⟩ := Traced.bind_result_ok later
    cases last
    rw [Members.get?_cons, Members.get?_cons]
    by_cases here : entry.1 = name
    · rw [if_pos here, if_pos here]
      exact .some (here ▸ first)
    · rw [if_neg here, if_neg here]
      exact ih second

theorem visitMembers_names {members results : Members}
    (h : (visitMembers visit members).result = .ok results) :
    results.map (·.1) = members.map (·.1) := by
  induction members generalizing results with
  | nil =>
    cases h
    rfl
  | cons entry rest ih =>
    rw [visitMembers] at h
    obtain ⟨value, first, later⟩ := Traced.bind_result_ok h
    obtain ⟨others, second, last⟩ := Traced.bind_result_ok later
    cases last
    rw [List.map_cons, List.map_cons, ih second]

theorem visitMembers_error {members : Members}
    (h : (visitMembers visit members).result = .error stop) :
    ∃ entry ∈ members, (visit entry.1 entry.2).result = .error stop := by
  induction members with
  | nil => cases h
  | cons entry rest ih =>
    rw [visitMembers] at h
    rcases Traced.bind_result_error h with here | ⟨value, _, later⟩
    · exact ⟨entry, List.mem_cons_self, here⟩
    rcases Traced.bind_result_error later with there | ⟨others, _, last⟩
    · obtain ⟨other, listed, failed⟩ := ih there
      exact ⟨other, List.mem_cons_of_mem _ listed, failed⟩
    · cases last

theorem visitItems_forall₂ {pointer : Pointer} {start : Nat} {items results : List Json}
    (h : (visitItems look pointer start items).result = .ok results) :
    List.Forall₂ (fun item result => ∃ place, (look place item).result = .ok result) items
      results := by
  induction items generalizing start results with
  | nil =>
    cases h
    exact .nil
  | cons item rest ih =>
    rw [visitItems] at h
    obtain ⟨result, first, later⟩ := Traced.bind_result_ok h
    obtain ⟨others, second, last⟩ := Traced.bind_result_ok later
    cases last
    exact .cons ⟨_, first⟩ (ih second)

theorem visitItems_error {pointer : Pointer} {start : Nat} {items : List Json}
    (h : (visitItems look pointer start items).result = .error stop) :
    ∃ item ∈ items, ∃ place, (look place item).result = .error stop := by
  induction items generalizing start with
  | nil => cases h
  | cons item rest ih =>
    rw [visitItems] at h
    rcases Traced.bind_result_error h with here | ⟨result, _, later⟩
    · exact ⟨item, List.mem_cons_self, _, here⟩
    rcases Traced.bind_result_error later with there | ⟨others, _, last⟩
    · obtain ⟨other, listed, place, failed⟩ := ih there
      exact ⟨other, List.mem_cons_of_mem _ listed, place, failed⟩
    · cases last

end Children

/-- Members can be visited in any order: a failure is one in any order, though not the same. -/
theorem visitMembers_perm (visit : String → Json → Traced Json) {members others : Members}
    (perm : members.Perm others) :
    Traced.Lockstep List.Perm (visitMembers visit members) (visitMembers visit others) := by
  induction perm with
  | nil => exact .pure .nil
  | cons entry _ ih =>
    rw [visitMembers, visitMembers]
    apply (Traced.Lockstep.refl (fun _ => rfl) (visit entry.1 entry.2)).bind
    rintro value _ rfl
    exact ih.bind fun _ _ perm => .pure (perm.cons _)
  | swap first second rest =>
    simp only [visitMembers, bind_assoc, pure_bind]
    apply Traced.Lockstep.swap
    intro a b
    exact (Traced.Lockstep.refl (fun _ => rfl) (visitMembers visit rest)).bind fun _ _ same =>
      .pure (same ▸ .swap _ _ _)
  | trans _ _ ih ih' => exact ih.trans ih' fun _ _ _ => .trans

section Run

variable {f : Number → Number} (respelling : Respelling f)

theorem visitMembers_aligned {D : Json → Json → Prop} {visit other : String → Json → Traced Json}
    (each : ∀ name v w, D v w → (visit name v).Lockstep D (other name w))
    {members others : Members} (aligned : Members.Aligned D members others) :
    (visitMembers visit members).Lockstep
      (fun results arranged =>
        results.map (·.1) = members.map (·.1) ∧ Members.Aligned D results arranged)
      (visitMembers other others) := by
  induction aligned with
  | nil => exact .pure ⟨rfl, .nil⟩
  | @cons entry partner _ _ here _ ih =>
    obtain ⟨name, value⟩ := entry
    obtain ⟨_, value'⟩ := partner
    obtain ⟨rfl, same⟩ := here
    rw [visitMembers, visitMembers]
    apply (each name value value' same).bind
    intro result arranged first
    apply ih.bind
    intro results rest later
    exact .pure ⟨congrArg (name :: ·) later.1, .cons ⟨rfl, first⟩ later.2⟩

theorem visitMembers_lockstep {visit other : String → Json → Traced Json}
    (each : ∀ name v w, Respelled f v w → (visit name v).Lockstep (Respelled f) (other name w))
    {members others : Members} (same : Respelled f (.object members) (.object others)) :
    (visitMembers visit members).Lockstep
      (fun results moved => Respelled f (.object results) (.object moved))
      (visitMembers other others) := by
  have distinct := (distinct_object.mp same.left).1
  obtain ⟨arranged, perm, aligned⟩ := same.aligned
  apply (visitMembers_aligned each aligned).trans (visitMembers_perm other perm.symm)
  rintro results _ moved ⟨names, together⟩ permuted
  exact .of_aligned (names ▸ distinct) together permuted.symm

theorem visitItems_lockstep {D : Json → Json → Prop} {visit other : Pointer → Json → Traced Json}
    (each : ∀ pointer v w, D v w → (visit pointer v).Lockstep D (other pointer w))
    {items others : List Json} (same : List.Forall₂ D items others) (pointer : Pointer)
    (start : Nat) :
    (visitItems visit pointer start items).Lockstep (List.Forall₂ D)
      (visitItems other pointer start others) := by
  induction same generalizing start with
  | nil => exact .pure .nil
  | cons here _ ih =>
    rw [visitItems, visitItems]
    apply (each _ _ _ here).bind
    intro _ _ first
    apply (ih (start + 1)).bind
    intro _ _ rest
    exact .pure (.cons first rest)

variable {rules : List Rule} {walker : Walker} {resolver : Resolver}

include respelling in
theorem visitKeyword_lockstep {visit other : Pointer → Json → Traced Json}
    (each : ∀ pointer v w, Respelled f v w →
      (visit pointer v).Lockstep (Respelled f) (other pointer w))
    (vocabularies : Vocabularies) (pointer : Pointer) (name : String) {v w : Json}
    (same : Respelled f v w) :
    (visitKeyword walker visit vocabularies pointer name v).Lockstep (Respelled f)
      (visitKeyword walker other vocabularies pointer name w) := by
  have resemblance := resemblance_respelled respelling
  unfold visitKeyword
  generalize (walker vocabularies name).map Keyword.role = role
  rcases role with _ | role
  · exact .pure same
  · cases role with
    | subschema => exact each _ _ _ same
    | subschemaList =>
      cases resemblance.kindred same with
      | array items others =>
        apply (visitItems_lockstep each (resemblance.array.mp same) _ 0).bind
        exact fun _ _ related => .pure (resemblance.array.mpr related)
      | null | bool | number | string | object => exact .pure same
    | subschemaMap =>
      cases resemblance.kindred same with
      | object members others =>
        dsimp only
        rw [visitEntries_eq, visitEntries_eq]
        apply (visitMembers_lockstep (fun _ => each _) same).bind
        exact fun _ _ related => .pure related
      | null | bool | number | string | array => exact .pure same
    | identity | reference | comment | assertion | descriptive => exact .pure same

variable (respects : ∀ rule ∈ rules, rule.Respects (Respelled f))
include respelling respects

theorem settle_lockstep {inherited : String} {pointer : Pointer} {x y : Json}
    (same : Respelled f x y) (steps : Nat) :
    (settle rules resolver inherited pointer steps x).Lockstep
      (fun p q => p.1 = q.1 ∧ Respelled f p.2 q.2)
      (settle rules resolver inherited pointer steps y) := by
  induction steps generalizing x y with
  | zero => exact .stop _ _
  | succ steps ih =>
    rw [settle, settle, (resemblance_respelled respelling).contextOf same]
    apply (Traced.Lockstep.refl (fun _ => rfl) _).bind
    rintro context _ rfl
    rw [first_congr_of_respects respects same]
    rcases Rule.first_cases y context rules with crash | found
    · rw [crash]
      exact .stop _ _
    rw [found, pure_bind, pure_bind]
    refine (Traced.Lockstep.emit ?_).bind ?_
    · cases rules.find? (·.condition y context) <;> rfl
    intro _ _ _
    cases matched : rules.find? (·.condition y context) with
    | none => exact .pure ⟨rfl, same⟩
    | some rule =>
      have rule_respects := respects rule (List.mem_of_find?_eq_some matched)
      have condition := List.find?_some matched
      rw [← rule_respects.condition x y context same] at condition
      exact ih (rule_respects.transform x y context same condition)

theorem visit_lockstep {steps : Nat} {inherited : String} {pointer : Pointer} {x y : Json}
    (same : Respelled f x y) :
    (visit rules walker resolver steps inherited pointer x).Lockstep (Respelled f)
      (visit rules walker resolver steps inherited pointer y) := by
  induction steps generalizing inherited pointer x y with
  | zero => exact .stop _ _
  | succ steps ih =>
    rw [visit, visit]
    apply (settle_lockstep respelling respects same steps).bind
    rintro ⟨context, node⟩ ⟨_, other⟩ ⟨rfl, related⟩
    cases kindred_of_normal related.same with
    | object members others =>
      dsimp only
      rw [visitKeywords_eq, visitKeywords_eq]
      have each := fun name v w => @visitKeyword_lockstep f respelling walker _ _
        (fun pointer v w => @ih context.dialect pointer v w) context.vocabularies pointer name v w
      apply (visitMembers_lockstep each related).bind
      exact fun _ _ related => .pure related
    | null | bool | number | string | array => exact .pure related

theorem runPasses_lockstep {dialect : String} {steps number applied : Nat} {x y : Json}
    (same : Respelled f x y) :
    (runPasses rules walker resolver dialect steps number applied x).Lockstep (Respelled f)
      (runPasses rules walker resolver dialect steps number applied y) := by
  induction steps generalizing number applied x y with
  | zero => exact .stop _ _
  | succ steps ih =>
    have pass := @visit_lockstep f respelling rules walker resolver respects steps dialect .root
      x y same
    rw [runPasses, runPasses]
    dsimp only
    cases pass with
    | failure left right =>
      exact .failure (by rw [Traced.bind_error left]) (by rw [Traced.bind_error right])
    | success left right related even =>
      rw [even]
      apply (Traced.Lockstep.success left right related even).bind
      intro a b related
      apply (Traced.Lockstep.emit rfl).bind
      intro _ _ _
      split
      · exact ih related
      · apply (Traced.Lockstep.emit rfl).bind
        exact fun _ _ _ => .pure related

end Run

end Fresh

section Saturation

variable {f : Number → Number} (respelling : Respelling f) {x y : Json}
include respelling

theorem ofDocument_congr (same : Respelled f x y) (default : Option String) :
    Dialect.ofDocument x default = Dialect.ofDocument y default := by
  rw [Dialect.ofDocument, Dialect.ofDocument, (resemblance_respelled respelling).declared? same]

/-- Rules that respect a relation between documents keep to it in every run. -/
theorem saturate_lockstep {rules : List Rule}
    (respects : ∀ rule ∈ rules, rule.Respects (Respelled f)) (same : Respelled f x y)
    (resolver : Resolver) (default : Option String) (limit : Nat) (walker : Walker) :
    (saturate rules resolver default x limit walker).Lockstep (Respelled f)
      (saturate rules resolver default y limit walker) := by
  rw [saturate_eq, saturate_eq, ofDocument_congr respelling same]
  apply (Traced.Lockstep.refl (fun _ => rfl) _).bind
  rintro dialect _ rfl
  exact Fresh.runPasses_lockstep respelling respects same

end Saturation

end SchemaPack
