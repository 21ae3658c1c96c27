import SchemaPack.Proofs.Json.Distinct
import SchemaPack.Proofs.Json.Pointer
import SchemaPack.Proofs.Rules.Fresh

namespace SchemaPack

namespace Pointer

/-- A pointer covers what lies at it or below it. -/
def Covers (outer inner : Pointer) : Prop := outer.tokens <+: inner.tokens

theorem Covers.refl (place : Pointer) : place.Covers place := List.prefix_refl _

theorem not_child_covers (place : Pointer) (token : String) :
    ¬(place.child token).Covers place := by
  intro covers
  have shorter := covers.length_le
  simp only [child, List.length_append, List.length_singleton] at shorter
  omega

theorem Covers.of_child {place inner : Pointer} {token : String}
    (covers : (place.child token).Covers inner) : place.Covers inner :=
  (List.prefix_append _ _).trans covers

theorem not_covers_of_ne {place outer inner : Pointer} {token other : String}
    (different : token ≠ other) (below : (place.child token).Covers outer)
    (beside : (place.child other).Covers inner) : ¬outer.Covers inner := by
  intro covers
  have both : (place.child token).tokens <+: (place.child other).tokens :=
    List.prefix_of_prefix_length_le (below.trans covers) beside (by simp [child])
  have same := both.eq_of_length (by simp [child])
  apply different
  simpa [child] using same

def Under (place : Pointer) (names : List String) (inner : Pointer) : Prop :=
  ∃ name ∈ names, (place.child name).Covers inner

theorem Under.covers {place inner : Pointer} {names : List String}
    (under : place.Under names inner) : place.Covers inner := by
  obtain ⟨_, _, below⟩ := under
  exact below.of_child

end Pointer

def Event.place? : Event → Option Pointer
  | .examined context _ _ => some context.pointer
  | _ => none

def Event.rewritten? : Event → Option Pointer
  | .examined context _ (some _) => some context.pointer
  | _ => none

namespace Traced

variable {α β : Type}

def examined (x : Traced α) : List Pointer := x.events.filterMap Event.place?

def rewritten (x : Traced α) : List Pointer := x.events.filterMap Event.rewritten?

@[simp] theorem pure_examined (a : α) : (pure a : Traced α).examined = [] := rfl

@[simp] theorem pure_rewritten (a : α) : (pure a : Traced α).rewritten = [] := rfl

theorem bind_examined {x : Traced α} {a : α} (h : x.result = .ok a) (f : α → Traced β) :
    (x >>= f).examined = x.examined ++ (f a).examined := by
  rw [bind_ok h]
  simp only [examined, List.filterMap_append]

theorem bind_rewritten {x : Traced α} {a : α} (h : x.result = .ok a) (f : α → Traced β) :
    (x >>= f).rewritten = x.rewritten ++ (f a).rewritten := by
  rw [bind_ok h]
  simp only [rewritten, List.filterMap_append]

theorem bind_examined_error {x : Traced α} {stop : Stop} (h : x.result = .error stop)
    (f : α → Traced β) : (x >>= f).examined = x.examined := by
  rw [bind_error h]
  rfl

theorem bind_rewritten_error {x : Traced α} {stop : Stop} (h : x.result = .error stop)
    (f : α → Traced β) : (x >>= f).rewritten = x.rewritten := by
  rw [bind_error h]
  rfl

theorem mem_examined_of_rewritten {x : Traced α} {place : Pointer} (applied : place ∈ x.rewritten) :
    place ∈ x.examined := by
  obtain ⟨event, listed, named⟩ := List.mem_filterMap.mp applied
  refine List.mem_filterMap.mpr ⟨event, listed, ?_⟩
  cases event with
  | examined context node rule =>
    cases rule with
    | none => cases named
    | some rule => exact named
  | passed | settled | fellBack => cases named

theorem applications_eq (x : Traced α) : x.applications = x.rewritten.length := by
  rw [applications, rewritten, List.length_filterMap_eq_countP]
  apply List.countP_congr
  intro event _
  rcases event with ⟨_, _, _ | _⟩ | _ | _ | _ <;> simp [Event.isApplication, Event.rewritten?]

/-- A computation that stays in a region, applies at most one rule in each place and looks at
    nothing below a place where it does. -/
structure Tidy (x : Traced α) (region : Pointer → Prop) : Prop where
  within : ∀ place ∈ x.examined, region place
  once : x.rewritten.Nodup
  closed : ∀ outer ∈ x.rewritten, ∀ inner ∈ x.examined, outer.Covers inner → inner = outer

namespace Tidy

variable {x : Traced α} {region larger : Pointer → Prop}

theorem of_nil (none : x.events = []) : x.Tidy region := by
  constructor <;> simp [examined, rewritten, none]

theorem pure (a : α) : (Pure.pure a : Traced α).Tidy region := of_nil rfl

theorem mono (tidy : x.Tidy region) (inside : ∀ place, region place → larger place) :
    x.Tidy larger :=
  ⟨fun place listed => inside place (tidy.within place listed), tidy.once, tidy.closed⟩

theorem bind {f : α → Traced β} {other : Pointer → Prop} (first : x.Tidy region)
    (later : ∀ a, x.result = .ok a → (f a).Tidy other)
    (before : ∀ outer ∈ x.rewritten, ∀ inner, other inner → ¬outer.Covers inner)
    (after : ∀ outer, other outer → ∀ inner ∈ x.examined, ¬outer.Covers inner) :
    (x >>= f).Tidy fun place => region place ∨ other place := by
  cases given : x.result with
  | error stop =>
    have places := bind_examined_error given f
    have changes := bind_rewritten_error given f
    constructor
    · rw [places]
      exact fun place listed => .inl (first.within place listed)
    · rw [changes]
      exact first.once
    · rw [places, changes]
      exact first.closed
  | ok a =>
    have second := later a given
    have places := bind_examined given f
    have changes := bind_rewritten given f
    constructor
    · intro place listed
      rw [places, List.mem_append] at listed
      exact listed.imp (first.within place) (second.within place)
    · rw [changes, List.nodup_append]
      refine ⟨first.once, second.once, ?_⟩
      rintro place earlier _ again rfl
      have reached := second.within place (mem_examined_of_rewritten again)
      exact before place earlier place reached (.refl place)
    · intro outer applied inner listed covers
      rw [changes, List.mem_append] at applied
      rw [places, List.mem_append] at listed
      rcases applied with applied | applied <;> rcases listed with listed | listed
      · exact first.closed outer applied inner listed covers
      · exact absurd covers (before outer applied inner (second.within inner listed))
      · have reached := second.within outer (mem_examined_of_rewritten applied)
        exact absurd covers (after outer reached inner listed)
      · exact second.closed outer applied inner listed covers

theorem bind_child {f : α → Traced β} {pointer : Pointer} {name : String} {names : List String}
    (unlisted : name ∉ names) (first : x.Tidy (pointer.child name).Covers)
    (later : ∀ a, x.result = .ok a → (f a).Tidy (pointer.Under names)) :
    (x >>= f).Tidy (pointer.Under (name :: names)) := by
  have apart : ∀ place beside, (pointer.child name).Covers place → pointer.Under names beside →
      ¬place.Covers beside ∧ ¬beside.Covers place := by
    rintro place beside here ⟨other, listed, there⟩
    have different : name ≠ other := by
      rintro rfl
      exact unlisted listed
    exact ⟨Pointer.not_covers_of_ne different here there,
      Pointer.not_covers_of_ne different.symm there here⟩
  have joined := first.bind later
    (fun outer applied inner under =>
      (apart outer inner (first.within outer (mem_examined_of_rewritten applied)) under).1)
    (fun outer under inner listed => (apart inner outer (first.within inner listed) under).2)
  refine joined.mono ?_
  rintro place (here | ⟨other, listed, there⟩)
  · exact ⟨name, List.mem_cons_self, here⟩
  · exact ⟨other, List.mem_cons_of_mem _ listed, there⟩

theorem bind_pure {f : α → β} (tidy : x.Tidy region) :
    (x >>= fun a => Pure.pure (f a)).Tidy region := by
  have joined : (x >>= fun a => Pure.pure (f a)).Tidy fun place => region place ∨ False := by
    apply tidy.bind
    · exact fun a _ => pure (f a)
    · exact fun _ _ _ => False.elim
    · exact fun _ => False.elim
  simpa using joined

end Tidy

end Traced

namespace Fresh

theorem settle_examined (rules : List Rule) (resolver : Resolver) (inherited : String)
    (pointer : Pointer) (steps : Nat) (node : Json) :
    ∀ place ∈ (settle rules resolver inherited pointer steps node).examined, place = pointer := by
  induction steps generalizing node with
  | zero => simp [settle, Traced.stop, Traced.examined]
  | succ steps ih =>
    rw [settle]
    cases here : Context.of resolver inherited pointer node with
    | error failure =>
      rw [Traced.ofExcept_error_bind]
      exact List.forall_mem_nil _
    | ok context =>
      obtain ⟨_, _, _, place⟩ := Context.of_eq_ok_iff.mp here
      rw [Traced.ofExcept_ok_bind]
      rcases Rule.first_cases node context rules with crash | found
      · rw [crash]
        exact List.forall_mem_nil _
      · rw [found, pure_bind, Traced.bind_examined (Traced.emit_result _)]
        refine List.forall_mem_append.mpr ⟨?_, ?_⟩
        · simp [Traced.examined, Event.place?, place]
        · cases rules.find? (·.condition node context) with
          | some rule => exact ih _
          | none => simp

theorem visitMembers_tidy {visit : String → Json → Traced Json} (pointer : Pointer)
    (inside : ∀ name value, value.Distinct → (visit name value).Tidy (pointer.child name).Covers)
    (members : Members) (unique : (members.map (·.1)).Nodup)
    (distinct : Json.DistinctMembers members) :
    (visitMembers visit members).Tidy (pointer.Under (members.map (·.1))) := by
  induction members with
  | nil => exact .pure _
  | cons entry rest ih =>
    rw [List.map_cons, List.nodup_cons] at unique
    apply Traced.Tidy.bind_child unique.1
    · exact inside _ _ distinct.1
    · exact fun _ _ => (ih unique.2 distinct.2).bind_pure

section Children

variable {visit : Pointer → Json → Traced Json}
  (inside : ∀ pointer node, node.Distinct → (visit pointer node).Tidy pointer.Covers)

include inside

theorem visitItems_tidy (pointer : Pointer) (start : Nat) (items : List Json)
    (distinct : Json.DistinctItems items) : (visitItems visit pointer start items).Tidy
      (pointer.Under ((List.range' start items.length).map toString)) := by
  induction items generalizing start with
  | nil => exact .pure _
  | cons item rest ih =>
    rw [List.length_cons, List.range'_succ, List.map_cons]
    apply Traced.Tidy.bind_child
    · intro again
      obtain ⟨index, later, same⟩ := List.mem_map.mp again
      have past := (List.mem_range'_1.mp later).1
      rw [toString_inj same] at past
      omega
    · exact inside _ _ distinct.1
    · exact fun _ _ => (ih (start + 1) distinct.2).bind_pure

theorem visitKeyword_tidy (walker : Walker) (vocabularies : Vocabularies) (pointer : Pointer)
    (name : String) (value : Json) (distinct : value.Distinct) :
    (visitKeyword walker visit vocabularies pointer name value).Tidy
      (pointer.child name).Covers := by
  unfold visitKeyword
  split
  · exact inside _ _ distinct
  · have items := visitItems_tidy inside (pointer.child name) 0 _ distinct
    exact (items.mono fun _ => Pointer.Under.covers).bind_pure
  · rw [visitEntries_eq]
    have entries := visitMembers_tidy (pointer.child name) (fun _ => inside _) _ distinct.1
      distinct.2
    exact (entries.mono fun _ => Pointer.Under.covers).bind_pure
  · exact .pure _

theorem visitKeywords_tidy (walker : Walker) (vocabularies : Vocabularies) (pointer : Pointer)
    (entries : List (String × Json)) (unique : (entries.map (·.1)).Nodup)
    (distinct : Json.DistinctMembers entries) :
    (visitKeywords walker visit vocabularies pointer entries).Tidy
      (pointer.Under (entries.map (·.1))) := by
  rw [visitKeywords_eq]
  exact visitMembers_tidy pointer (visitKeyword_tidy inside walker vocabularies pointer) entries
    unique distinct

end Children

end Fresh

end SchemaPack
