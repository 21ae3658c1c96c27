import SchemaPack.Proofs.Rules.Traced

namespace SchemaPack.Dialect

def declaredVocabularies? (found : Json) : Option Vocabularies :=
  ((found.get? "$vocabulary").bind (·.members?)).map (·.map (·.1))

/-- The metaschemas on the way up from one dialect to another, each written in the dialect of the
    next. The one of the last dialect is not among them. -/
inductive Climbs (resolver : Resolver) : String → List Json → String → Prop
  | here (dialect : String) : Climbs resolver dialect [] dialect
  | up {dialect parent last : String} {found : Json} {chain : List Json}
      (given : metaschema resolver dialect = .ok found)
      (above : parent? dialect found = some parent) (rest : Climbs resolver parent chain last) :
      Climbs resolver dialect (found :: chain) last

theorem Climbs.trans {resolver : Resolver} {first middle last : String} {chain others : List Json}
    (climbs : Climbs resolver first chain middle) (rest : Climbs resolver middle others last) :
    Climbs resolver first (chain ++ others) last := by
  induction climbs with
  | here => exact rest
  | up given above _ ih => exact .up given above (ih rest)

/-- What is found out with a resolver depends on a number of its answers at most. Which identifiers
    it is asked for may depend on what it answers. -/
def Consults {α : Type} (detect : Resolver → α) (resolver : Resolver) (limit : Nat) : Prop :=
  ∃ ids : List String, ids.length ≤ limit ∧
    ∀ other : Resolver, (∀ id ∈ ids, other id = resolver id) → detect other = detect resolver

theorem Consults.const {α : Type} (a : α) (resolver : Resolver) (limit : Nat) :
    Consults (fun _ => a) resolver limit :=
  ⟨[], Nat.zero_le _, fun _ _ => rfl⟩

theorem metaschema_congr {resolver other : Resolver} {dialect : String}
    (same : other (normalizeId dialect) = resolver (normalizeId dialect)) :
    metaschema other dialect = metaschema resolver dialect := by
  unfold metaschema
  dsimp only
  rw [same]

theorem Consults.lookup {α : Type} {resolver : Resolver} {limit : Nat} (current : String)
    {next : Json → Resolver → Except Failure α}
    (later : ∀ found, Consults (next found) resolver limit) :
    Consults (fun resolver => metaschema resolver current >>= fun found => next found resolver)
      resolver (limit + 1) := by
  have asked : ∀ (ids : List String) (other : Resolver),
      (∀ id ∈ normalizeId current :: ids, other id = resolver id) →
        metaschema other current = metaschema resolver current :=
    fun _ _ agree => metaschema_congr (agree _ List.mem_cons_self)
  cases given : metaschema resolver current with
  | error failure =>
    refine ⟨[normalizeId current], Nat.succ_le_succ (Nat.zero_le _), fun other agree => ?_⟩
    dsimp only
    rw [asked [] other agree, given]
    rfl
  | ok found =>
    obtain ⟨ids, few, depends⟩ := later found
    refine ⟨normalizeId current :: ids, Nat.succ_le_succ few, fun other agree => ?_⟩
    dsimp only
    rw [asked ids other agree, given]
    exact depends other fun id listed => agree id (List.mem_cons_of_mem _ listed)

variable {resolver : Resolver} {dialect current last top : String} {lookups : Nat}
  {chain : List Json} {found : Json}

section Base

theorem followBase_of_ok (given : metaschema resolver current = .ok found) :
    followBase resolver dialect (lookups + 1) current =
      match parent? current found with
      | some parent => followBase resolver dialect lookups parent
      | none => .ok current := by
  rw [followBase, given]
  rfl

theorem followBase_consults (dialect current : String) (lookups : Nat) :
    Consults (fun resolver => followBase resolver dialect lookups current) resolver lookups := by
  induction lookups generalizing current with
  | zero => exact .const _ _ _
  | succ lookups ih =>
    refine .lookup current fun found => ?_
    cases parent? current found with
    | some parent => exact ih parent
    | none => exact .const _ _ _

theorem Climbs.followBase (climbs : Climbs resolver current chain last) (dialect : String)
    (lookups : Nat) :
    followBase resolver dialect (chain.length + lookups) current =
      Dialect.followBase resolver dialect lookups last := by
  induction climbs with
  | here => rw [List.length_nil, Nat.zero_add]
  | up given above _ ih =>
    rw [List.length_cons, Nat.add_right_comm, followBase_of_ok given, above]
    exact ih

theorem exists_climbs (followed : followBase resolver dialect lookups current = .ok top) :
    ∃ chain found, Climbs resolver current chain top ∧ chain.length < lookups ∧
      metaschema resolver top = .ok found ∧ parent? top found = none := by
  induction lookups generalizing current with
  | zero => cases followed
  | succ lookups ih =>
    cases given : metaschema resolver current with
    | error failure =>
      rw [followBase, given] at followed
      cases followed
    | ok found =>
      rw [followBase_of_ok given] at followed
      cases above : parent? current found with
      | some parent =>
        rw [above] at followed
        obtain ⟨chain, last, climbs, short, ends⟩ := ih followed
        exact ⟨found :: chain, last, .up given above climbs, Nat.succ_lt_succ short, ends⟩
      | none =>
        rw [above] at followed
        cases followed
        exact ⟨[], found, .here _, Nat.succ_pos _, given, above⟩

end Base

section Vocabularies

theorem followVocabularies_of_ok (given : metaschema resolver current = .ok found) :
    followVocabularies resolver dialect (lookups + 1) current =
      match declaredVocabularies? found with
      | some declared => .ok declared
      | none =>
        match parent? current found with
        | some parent => followVocabularies resolver dialect lookups parent
        | none => .ok [current] := by
  rw [followVocabularies, given, declaredVocabularies?]
  dsimp only [bind, Except.bind]
  cases Option.bind (found.get? "$vocabulary") (·.members?) <;> rfl

theorem followVocabularies_consults (dialect current : String) (lookups : Nat) :
    Consults (fun resolver => followVocabularies resolver dialect lookups current) resolver
      lookups := by
  induction lookups generalizing current with
  | zero => exact .const _ _ _
  | succ lookups ih =>
    refine .lookup current fun found => ?_
    cases (found.get? "$vocabulary").bind (·.members?) with
    | some declared => exact .const _ _ _
    | none =>
      cases parent? current found with
      | some parent => exact ih parent
      | none => exact .const _ _ _

theorem Climbs.followVocabularies (climbs : Climbs resolver current chain last)
    (undeclared : ∀ found ∈ chain, declaredVocabularies? found = none) (dialect : String)
    (lookups : Nat) :
    followVocabularies resolver dialect (chain.length + lookups) current =
      Dialect.followVocabularies resolver dialect lookups last := by
  induction climbs with
  | here => rw [List.length_nil, Nat.zero_add]
  | up given above _ ih =>
    rw [List.forall_mem_cons] at undeclared
    rw [List.length_cons, Nat.add_right_comm, followVocabularies_of_ok given, undeclared.1, above]
    exact ih undeclared.2

/-- On the way to a base the nearest declaration counts, or the base if there is none. -/
theorem Climbs.followVocabularies_eq_ok (climbs : Climbs resolver current chain top)
    (given : metaschema resolver top = .ok found) (ends : parent? top found = none)
    (short : chain.length < lookups) :
    Dialect.followVocabularies resolver dialect lookups current =
      .ok (((chain ++ [found]).findSome? declaredVocabularies?).getD [top]) := by
  induction climbs generalizing lookups with
  | here =>
    obtain ⟨lookups, rfl⟩ := Nat.exists_eq_add_one_of_ne_zero (Nat.ne_zero_of_lt short)
    rw [followVocabularies_of_ok given, ends, List.nil_append, List.findSome?_singleton]
    cases declaredVocabularies? found <;> rfl
  | @up current _ _ met _ reached above _ ih =>
    obtain ⟨lookups, rfl⟩ := Nat.exists_eq_add_one_of_ne_zero (Nat.ne_zero_of_lt short)
    rw [followVocabularies_of_ok reached, List.cons_append, List.findSome?_cons]
    cases declaredVocabularies? met with
    | some declared => rfl
    | none =>
      rw [above]
      exact ih given ends (Nat.lt_of_succ_lt_succ short)

end Vocabularies

/-- The two detections end together. Neither takes more than 16 look-ups, and a walk that goes on
    after as many fails for the dialect that it started from. Where there is a base, there are
    vocabularies: those that the nearest metaschema on the way to the base declares, or the base as
    the only one. -/
theorem detections_agree (resolver : Resolver) (dialect : String) :
    Consults (base · dialect) resolver 16 ∧ Consults (vocabularies · dialect) resolver 16 ∧
      (∀ chain last, Climbs resolver (normalizeId dialect) chain last → chain.length = 16 →
        base resolver dialect = .error (.unresolvedMetaschema dialect) ∧
          ((∀ found ∈ chain, declaredVocabularies? found = none) →
            vocabularies resolver dialect = .error (.unresolvedMetaschema dialect))) ∧
        ∀ top, base resolver dialect = .ok top →
          ∃ chain found, Climbs resolver (normalizeId dialect) chain top ∧ chain.length < 16 ∧
            metaschema resolver top = .ok found ∧ parent? top found = none ∧
              vocabularies resolver dialect =
                .ok (((chain ++ [found]).findSome? declaredVocabularies?).getD [top]) := by
  refine ⟨followBase_consults _ _ _, followVocabularies_consults _ _ _, ?_, ?_⟩
  · intro chain last climbs long
    have based := climbs.followBase dialect 0
    rw [long] at based
    refine ⟨based, fun undeclared => ?_⟩
    have active := climbs.followVocabularies undeclared dialect 0
    rwa [long] at active
  · intro top based
    obtain ⟨chain, found, climbs, short, given, ends⟩ := exists_climbs based
    exact ⟨chain, found, climbs, short, given, ends,
      climbs.followVocabularies_eq_ok given ends short⟩

/-- A chain with vocabularies half-way up, and two metaschemas that are written in each other's
    dialect. -/
theorem detections_agree_loop :
    let written := fun (dialect : String) => Json.object [("$schema", .string dialect)]
    let middle := Json.object [("$schema", .string "urn:top"),
      ("$vocabulary", .object [("urn:own", .bool true), (Vocabulary.core, .bool false)])]
    let resolver := (Registry.mk [("urn:low", written "urn:middle#"), ("urn:middle", middle),
      ("urn:top", written "urn:top#"), ("urn:one", written "urn:other"),
      ("urn:other", written "urn:one")]).resolver
    let loop := (List.replicate 8 [written "urn:other", written "urn:one"]).flatten
    base resolver "urn:low#" = .ok "urn:top" ∧
      (∃ chain found, Climbs resolver "urn:low" chain "urn:top" ∧ chain.length < 16 ∧
        metaschema resolver "urn:top" = .ok found ∧ parent? "urn:top" found = none ∧
          vocabularies resolver "urn:low#" =
            .ok (((chain ++ [found]).findSome? declaredVocabularies?).getD ["urn:top"])) ∧
        Climbs resolver "urn:one" loop "urn:one" ∧ loop.length = 16 ∧
          (∀ found ∈ loop, declaredVocabularies? found = none) ∧
            base resolver "urn:one" = .error (.unresolvedMetaschema "urn:one") ∧
              vocabularies resolver "urn:one" = .error (.unresolvedMetaschema "urn:one") := by
  intro written middle resolver loop
  have based : base resolver "urn:low#" = .ok "urn:top" := by decide +kernel
  have low := (detections_agree resolver "urn:low#").2.2.2 _ based
  have back : Climbs resolver "urn:other" [written "urn:one"] "urn:one" :=
    .up (by decide +kernel) (by decide +kernel) (.here "urn:one")
  have two : Climbs resolver "urn:one" [written "urn:other", written "urn:one"] "urn:one" :=
    .up (by decide +kernel) (by decide +kernel) back
  have four := two.trans two
  have eight := four.trans four
  have around : Climbs resolver "urn:one" loop "urn:one" := eight.trans eight
  have undeclared : ∀ found ∈ loop, declaredVocabularies? found = none := by decide +kernel
  have one := (detections_agree resolver "urn:one").2.2.1 loop "urn:one" around rfl
  exact ⟨based, low, around, rfl, undeclared, one.1, one.2 undeclared⟩

end SchemaPack.Dialect
