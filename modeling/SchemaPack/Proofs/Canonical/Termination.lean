import SchemaPack.Proofs.Canonical.Crashes
import SchemaPack.Proofs.Canonical.Listing
import SchemaPack.Proofs.Canonical.Shrinking.Defaults
import SchemaPack.Proofs.Json.Distinct
import SchemaPack.Proofs.Rules.Budget
import SchemaPack.Proofs.Rules.Passes
import SchemaPack.Proofs.Rules.Steps

namespace SchemaPack

open Canonical Json Traced

namespace Canonical

theorem roleOf_eq {vocabularies : Vocabularies} {name : String} {role : Role}
    (known : (Keyword.find? vocabularies name).map Keyword.role = some role)
    (holds : role.holdsSubschemas = true) : Keyword.roleOf name = role := by
  obtain ⟨keyword, found, rfl⟩ := Option.map_eq_some_iff.mp known
  have listed := List.mem_of_find?_eq_some found
  have named := List.find?_some found
  simp only [Bool.and_eq_true, beq_iff_eq] at named
  have all_same : ∀ keyword ∈ Keyword.all, keyword.role.holdsSubschemas = true →
      Keyword.roleOf keyword.name = keyword.role := by decide +kernel
  rw [← named.1]
  exact all_same keyword listed holds

theorem cost_of_holds {name : String} (holds : (Keyword.roleOf name).holdsSubschemas = true)
    (demand : Nat) (value : Json) : cost demand name value = 1 := by
  unfold cost
  split
  all_goals first | rfl | (rw [roleOf_plain (by decide)] at holds; cases holds)

theorem cost_alike {vocabularies : Vocabularies} {members results : Members} (demand : Nat)
    (alike : Alike vocabularies members results) :
    Members.total (cost demand) members = Members.total (cost demand) results := by
  induction alike with
  | nil => rfl
  | @cons entry result _ _ same _ ih =>
    obtain ⟨name, value⟩ := entry
    obtain ⟨again, changed⟩ := result
    obtain ⟨names, plain⟩ := same
    dsimp only at names plain
    subst names
    rw [Members.total_cons, Members.total_cons, ih]
    cases holds : ((Keyword.find? vocabularies name).map Keyword.role).all
        (!·.holdsSubschemas) with
    | true => rw [plain holds]
    | false =>
      cases known : (Keyword.find? vocabularies name).map Keyword.role with
      | none =>
        rw [known] at holds
        cases holds
      | some role =>
        rw [known, Option.all_some, Bool.not_eq_false'] at holds
        have same_role := roleOf_eq known holds
        dsimp only
        rw [cost_of_holds (same_role ▸ holds), cost_of_holds (same_role ▸ holds)]

theorem weight_alike {vocabularies : Vocabularies} {members results : Members}
    (alike : Alike vocabularies members results) {spent : Nat}
    (lighter : spent + memberWeights results ≤ memberWeights members) :
    spent + weight .subschema (.object results) ≤ weight .subschema (.object members) := by
  have same : ∀ name ∈ Keyword.plain,
      (Json.object results).get? name = (Json.object members).get? name :=
    fun name plain => (alike.get? plain).symm
  have type := same "type" (by decide)
  have required := same "required" (by decide)
  have dependent := same "dependentRequired" (by decide)
  have demands : demand (.object results) = demand (.object members) := by
    simp only [demand, Json.share, required, dependent]
  have opens : isOpen (.object results) = isOpen (.object members) :=
    isOpen_eq fun keyword _ => alike.contains keyword
  have pending : pendingDefaults (.object results) = pendingDefaults (.object members) :=
    pendingDefaults_eq type (fun keyword _ => alike.contains keyword)
      fun _ _ keyword _ => alike.contains keyword
  have copied : copies (.object results) = copies (.object members) := by
    rw [copies, copies, type, opens]
  have kept : potential (.object results) = potential (.object members) := by
    rw [potential, potential, type, opens, demands, pending]
  rw [weight, weight, copied, kept, demands, ← cost_alike _ alike]
  have positive := copies_pos (.object members)
  have product := Nat.mul_le_mul_left (copies (.object members)) lighter
  have at_least := Nat.le_mul_of_pos_left spent positive
  simp only [Nat.mul_add] at product ⊢
  omega

theorem memberWeights_lt (members : Members) :
    memberWeights members < weight .subschema (.object members) := by
  have positive := copies_pos (.object members)
  have at_least := Nat.le_mul_of_pos_left (potential (.object members) +
    (memberWeights members + Members.total (cost (demand (.object members))) members)) positive
  rw [weight]
  omega

mutual

theorem tidy_of_distinct (role : Role) (value : Json) (distinct : value.Distinct) :
    Tidy role value := by
  cases value with
  | null | bool | number | string => cases role <;> exact trivial
  | array items =>
    cases role with
    | subschemaList => exact tidyItems_of_distinct items distinct
    | _ => exact trivial
  | object members =>
    cases role with
    | subschema => exact ⟨distinct.1, tidyMembers_of_distinct members distinct.2⟩
    | subschemaMap => exact tidyEntries_of_distinct members distinct.2
    | _ => exact trivial

theorem tidyItems_of_distinct (items : List Json) (distinct : Json.DistinctItems items) :
    TidyItems items := by
  cases items with
  | nil => exact trivial
  | cons item rest =>
    exact ⟨tidy_of_distinct .subschema item distinct.1, tidyItems_of_distinct rest distinct.2⟩

theorem tidyEntries_of_distinct (entries : List (String × Json))
    (distinct : Json.DistinctMembers entries) : TidyEntries entries := by
  cases entries with
  | nil => exact trivial
  | cons entry rest =>
    obtain ⟨name, value⟩ := entry
    exact ⟨tidy_of_distinct .subschema value distinct.1, tidyEntries_of_distinct rest distinct.2⟩

theorem tidyMembers_of_distinct (members : List (String × Json))
    (distinct : Json.DistinctMembers members) : TidyMembers members := by
  cases members with
  | nil => exact trivial
  | cons entry rest =>
    obtain ⟨name, value⟩ := entry
    exact ⟨tidy_of_distinct (Keyword.roleOf name) value distinct.1,
      tidyMembers_of_distinct rest distinct.2⟩

end

end Canonical

namespace Fresh

variable {resolver : Resolver}

theorem settle_within {inherited : String} {pointer : Pointer} {steps : Nat} {node : Json}
    (tidy : Tidy .subschema node) (sharp : node.Throughout Sharp)
    (enough : weight .subschema node < steps) :
    Within (weight .subschema node) (settle canonicalRules resolver inherited pointer steps node)
      (fun settled => Tidy .subschema settled.2 ∧ settled.2.Throughout Sharp)
      fun settled => weight .subschema settled.2 := by
  -- An application takes one step and at least one of the weight, so that more steps than weight
  -- are left.
  induction steps generalizing node with
  | zero => omega
  | succ steps ih =>
    rw [settle]
    refine Within.bind (Within.ofExcept (Context.of _ _ _ _)) ?_
    intro context _ _
    rcases Rule.first_cases node context canonicalRules with crash | first
    · rw [crash, stop_bind]
      exact Within.crash
    rw [first, pure_bind]
    cases matched : canonicalRules.find? (·.condition node context) with
    | some rule =>
      have listed := List.mem_of_find?_eq_some matched
      have condition := List.find?_some matched
      have precise := (precise_iff node).mpr sharp
      obtain ⟨still, lighter⟩ := canonicalRules_shrink rule listed node context tidy precise
        condition
      have sharper := canonicalRules_uphold lasting_sharp rule listed node context condition sharp
      have applied : Within (weight .subschema node) (emit (.examined context node (some rule)))
          (fun _ => True) fun _ => weight .subschema (rule.transform node) := by
        refine ⟨Except.ok_ends _, ?_, fun _ _ => ⟨trivial, ?_⟩⟩
        · change 1 ≤ _
          omega
        · change 1 + _ ≤ _
          omega
      exact applied.bind fun _ _ _ => ih still sharper (by omega)
    | none =>
      have idle : Within (weight .subschema node) (emit (.examined context node none))
          (fun _ => True) fun _ => weight .subschema node := by
        refine ⟨Except.ok_ends _, Nat.zero_le _, fun _ _ => ⟨trivial, ?_⟩⟩
        change 0 + _ ≤ _
        omega
      exact idle.bind fun _ _ _ => Within.pure ⟨tidy, sharp⟩ (Nat.le_refl _)

section Children

variable {visit : Pointer → Json → Traced Json} {bound : Nat}
  (inside : ∀ pointer node, Tidy .subschema node → node.Throughout Sharp →
    weight .subschema node ≤ bound →
      Within (weight .subschema node) (visit pointer node) (Tidy .subschema) (weight .subschema))

include inside

theorem visitItems_within {pointer : Pointer} {index : Nat} {items : List Json}
    (tidy : TidyItems items) (sharp : ∀ item ∈ items, item.Throughout Sharp)
    (light : itemWeights items ≤ bound) :
    Within (itemWeights items) (visitItems visit pointer index items) TidyItems itemWeights := by
  induction items generalizing index with
  | nil => exact Within.pure trivial (Nat.le_refl _)
  | cons item rest ih =>
    rw [itemWeights] at light ⊢
    obtain ⟨here, after⟩ := List.forall_mem_cons.mp sharp
    have first := inside (pointer.item index) item tidy.1 here (by omega)
    refine (first.frame (itemWeights rest)).bind fun result kept _ => ?_
    have later := @ih (index + 1) tidy.2 after (by omega)
    exact (later.frame_left _).bind fun results all_kept _ =>
      Within.pure ⟨kept, all_kept⟩ (Nat.le_refl _)

theorem visitEntries_within {pointer : Pointer} {entries : List (String × Json)}
    (tidy : TidyEntries entries) (sharp : ∀ entry ∈ entries, entry.2.Throughout Sharp)
    (light : entryWeights entries ≤ bound) :
    Within (entryWeights entries) (visitEntries visit pointer entries) TidyEntries
      entryWeights := by
  induction entries with
  | nil => exact Within.pure trivial (Nat.le_refl _)
  | cons entry rest ih =>
    obtain ⟨name, value⟩ := entry
    rw [entryWeights] at light ⊢
    obtain ⟨here, after⟩ := List.forall_mem_cons.mp sharp
    have first := inside (pointer.child name) value tidy.1 here (by omega)
    refine (first.frame (entryWeights rest)).bind fun result kept _ => ?_
    have later := ih tidy.2 after (by omega)
    exact (later.frame_left _).bind fun results all_kept _ =>
      Within.pure ⟨kept, all_kept⟩ (Nat.le_refl _)

theorem visitKeyword_within {vocabularies : Vocabularies} {pointer : Pointer} {name : String}
    {value : Json} (tidy : Tidy (Keyword.roleOf name) value) (sharp : value.Throughout Sharp)
    (light : weight (Keyword.roleOf name) value ≤ bound) :
    Within (weight (Keyword.roleOf name) value)
      (visitKeyword Keyword.find? visit vocabularies pointer name value)
      (Tidy (Keyword.roleOf name)) (weight (Keyword.roleOf name)) := by
  have still : Within (weight (Keyword.roleOf name) value) (pure value : Traced Json)
      (Tidy (Keyword.roleOf name)) (weight (Keyword.roleOf name)) :=
    Within.pure tidy (Nat.le_refl _)
  unfold visitKeyword
  cases known : (Keyword.find? vocabularies name).map Keyword.role with
  | none => exact still
  | some role =>
    cases role with
    | subschema =>
      rw [roleOf_eq known rfl] at tidy light ⊢
      exact inside _ _ tidy sharp light
    | subschemaList =>
      cases value with
      | array items =>
        rw [roleOf_eq known rfl] at tidy light ⊢
        have each := (throughout_array.mp sharp).2
        exact (visitItems_within inside tidy each light).bind fun _ kept _ =>
          Within.pure kept (Nat.le_refl _)
      | null | bool | number | string | object => exact still
    | subschemaMap =>
      cases value with
      | object entries =>
        rw [roleOf_eq known rfl] at tidy light ⊢
        exact (visitEntries_within inside tidy sharp.entries light).bind fun _ kept _ =>
          Within.pure kept (Nat.le_refl _)
      | null | bool | number | string | array => exact still
    | identity | reference | comment | assertion | descriptive => exact still

theorem visitKeywords_within {vocabularies : Vocabularies} {pointer : Pointer}
    {entries : List (String × Json)} (tidy : TidyMembers entries)
    (sharp : ∀ entry ∈ entries, entry.2.Throughout Sharp) (light : memberWeights entries ≤ bound) :
    Within (memberWeights entries) (visitKeywords Keyword.find? visit vocabularies pointer entries)
      TidyMembers memberWeights := by
  induction entries with
  | nil => exact Within.pure trivial (Nat.le_refl _)
  | cons entry rest ih =>
    obtain ⟨name, value⟩ := entry
    rw [memberWeights] at light ⊢
    obtain ⟨here, after⟩ := List.forall_mem_cons.mp sharp
    have first := @visitKeyword_within _ _ inside vocabularies pointer name value tidy.1 here
      (by omega)
    refine (first.frame (memberWeights rest)).bind fun result kept _ => ?_
    have later := ih tidy.2 after (by omega)
    exact (later.frame_left _).bind fun results all_kept _ =>
      Within.pure ⟨kept, all_kept⟩ (Nat.le_refl _)

end Children

theorem visit_within {inherited : String} {pointer : Pointer} {steps : Nat} {node : Json}
    (tidy : Tidy .subschema node) (sharp : node.Throughout Sharp)
    (enough : weight .subschema node + 1 < steps) :
    Within (weight .subschema node)
      (visit canonicalRules Keyword.find? resolver steps inherited pointer node) (Tidy .subschema)
      (weight .subschema) := by
  -- One step less is left below a node, and there is less weight.
  induction steps generalizing inherited pointer node with
  | zero => omega
  | succ steps ih =>
    rw [visit]
    have settled := @settle_within resolver inherited pointer steps node tidy sharp (by omega)
    refine settled.bind ?_
    rintro ⟨context, node⟩ ⟨still, sharper⟩ lighter
    dsimp only at still sharper lighter ⊢
    cases node with
    | object members =>
      obtain ⟨distinct, members_tidy⟩ := still
      have inside : ∀ pointer node, Tidy .subschema node → node.Throughout Sharp →
          weight .subschema node ≤ memberWeights members →
            Within (weight .subschema node)
              (visit canonicalRules Keyword.find? resolver steps context.dialect pointer node)
              (Tidy .subschema) (weight .subschema) := by
        intro pointer node tidy sharp light
        have under := memberWeights_lt members
        exact ih tidy sharp (by omega)
      have visited := @visitKeywords_within _ _ inside context.vocabularies pointer members
        members_tidy sharper.entries (Nat.le_refl _)
      have whole : Within (weight .subschema (.object members))
          (visitKeywords Keyword.find?
            (visit canonicalRules Keyword.find? resolver steps context.dialect)
            context.vocabularies pointer members)
          (fun results => Tidy .subschema (.object results))
          (fun results => weight .subschema (.object results)) := by
        refine ⟨visited.ends, ?_, ?_⟩
        · exact Nat.le_trans visited.spends (Nat.le_of_lt (memberWeights_lt members))
        · intro results given
          obtain ⟨kept, left⟩ := visited.leaves results given
          have alike := visitKeywords_alike given
          exact ⟨⟨alike.names ▸ distinct, kept⟩, weight_alike alike left⟩
      exact whole.bind fun results kept _ => Within.pure kept (Nat.le_refl _)
    | null | bool | number | string | array => exact Within.pure still (Nat.le_refl _)

/-- A run comes to its end: each pass but the last applies a rule, and every application leaves the
    document lighter. -/
theorem runPasses_ends {dialect : String} {steps number applied : Nat} {document : Json}
    (tidy : Tidy .subschema document) (sharp : document.Throughout Sharp)
    (enough : weight .subschema document + 2 < steps) :
    let run := runPasses canonicalRules Keyword.find? resolver dialect steps number applied document
    run.result ≠ .error .outOfSteps ∧ run.applications ≤ weight .subschema document ∧
      run.passes ≤ weight .subschema document + 1 := by
  induction steps generalizing number applied document with
  | zero => omega
  | succ steps ih =>
    have pass := @visit_within resolver dialect .root steps document tidy sharp (by omega)
    have within_pass := @visit_passes canonicalRules Keyword.find? resolver steps dialect .root
      document
    dsimp only
    rw [runPasses]
    cases given :
        (visit canonicalRules Keyword.find? resolver steps dialect .root document).result with
    | error stop =>
      have ends := pass.ends
      have spends := pass.spends
      rw [bind_error given]
      refine ⟨?_, spends, ?_⟩
      · intro short
        cases short
        exact ends given
      · change (visit canonicalRules Keyword.find? resolver steps dialect .root document).passes ≤ _
        omega
    | ok result =>
      obtain ⟨still, left⟩ := pass.leaves result given
      have sharper := visit_throughout lasting_sharp given sharp
      rw [bind_applications given, bind_passes given, within_pass, bind_ok given]
      -- What the pass has applied is missing from the weight that the next passes start with.
      by_cases changed : 0 <
          (visit canonicalRules Keyword.find? resolver steps dialect .root document).applications
      · obtain ⟨ends, spends, passes⟩ := @ih (number + 1) (applied +
          (visit canonicalRules Keyword.find? resolver steps dialect .root document).applications)
          result still sharper (by omega)
        simp only [changed, decide_true, if_true]
        rw [bind_applications (emit_result _), bind_passes (emit_result _),
          bind_ok (emit_result _)]
        refine ⟨ends, ?_, ?_⟩
        · change _ + (0 + _) ≤ _
          omega
        · change 0 + (1 + _) ≤ _
          omega
      · simp only [changed, decide_false, Bool.false_eq_true, if_false]
        refine ⟨Except.ok_ends _, ?_, ?_⟩
        · change _ + 0 ≤ _
          omega
        · change 0 + 1 ≤ _
          omega

end Fresh

/-- A run of the canonical rules on a precise document comes to its end within as many steps as the
    document weighs, and three more. -/
theorem canonicalize_ends (resolver : Resolver) (default : Option String) {document : Json}
    (tidy : Tidy .subschema document) (precise : document.Precise) {limit : Nat}
    (enough : weight .subschema document + 2 < limit) :
    let run := canonicalize resolver default document limit
    run.result ≠ .error .outOfSteps ∧ run.applications ≤ weight .subschema document ∧
      run.passes ≤ weight .subschema document + 1 := by
  dsimp only
  rw [canonicalize, saturate_eq]
  cases root : Dialect.ofDocument document default with
  | error failure =>
    rw [ofExcept_error_bind]
    refine ⟨fun stopped => ?_, Nat.zero_le _, Nat.zero_le _⟩
    cases stopped
  | ok dialect =>
    rw [ofExcept_ok_bind]
    exact Fresh.runPasses_ends tidy ((precise_iff document).mp precise) enough

/-- Canonicalization terminates as long as comparison orders the values of the document. From three
    steps beyond its weight on, no limit is reached: the run is the same, whether it gives a
    canonical schema or not, applies no more rules than the weight and makes at most one pass more.
    It crashes only on a schema that divides by `-1`. -/
theorem canonicalize_terminates (resolver : Resolver) (default : Option String) (document : Json)
    (distinct : document.Distinct) (precise : document.Precise) (limit : Nat)
    (enough : weight .subschema document + 3 ≤ limit) :
    let run := canonicalize resolver default document limit
    run = canonicalize resolver default document (weight .subschema document + 3) ∧
      run.result ≠ .error .outOfSteps ∧
        (document.Throughout Dividing → run.result ≠ .error .crashed) ∧
          run.applications ≤ weight .subschema document ∧
            run.passes ≤ weight .subschema document + 1 := by
  have tidy := tidy_of_distinct .subschema document distinct
  have least := (canonicalize_ends resolver default tidy precise (Nat.lt_succ_self _)).1
  have same := (saturate_extends canonicalRules Keyword.find? (Encoding.resolver resolver) default
    document enough).eq_of_enough least
  obtain ⟨ends, applications, passes⟩ := canonicalize_ends resolver default tidy precise enough
  exact ⟨same, ends, fun divides => canonicalize_uncrashed resolver default precise divides limit,
    applications, passes⟩

/-- Among 65 pairs that comparison does not order, duplicates are found for ever and none is
    dropped. -/
theorem canonicalize_endless :
    let document := object [("enum", array undiminished)]
    document.Distinct ∧ ∀ limit, (canonicalize Dialect.official (some Dialect.draft202012) document
      limit).result = .error .outOfSteps :=
  ⟨by decide +kernel, canonicalize_undiminished⟩

theorem canonicalize_terminates_union :
    let document := Json.object [("type", .array [.string "array", .string "object"]),
      ("items", .bool true), ("maxItems", .number (.integer 0))]
    let run := canonicalize Dialect.official (some Dialect.draft202012) document 10000
    document.Distinct ∧ document.Precise ∧ weight .subschema document + 3 ≤ 10000 ∧
      document.Throughout Dividing ∧ run.result ≠ .error .outOfSteps ∧
        run.result ≠ .error .crashed ∧ run.applications ≤ weight .subschema document ∧
          run.passes ≤ weight .subschema document + 1 := by
  intro document run
  have distinct : document.Distinct := by decide
  have precise : document.Precise := Literal.precise (by decide)
  have enough : weight .subschema document + 3 ≤ 10000 := by decide +kernel
  have divides : document.Throughout Dividing := by
    refine lasting_dividing.members ?_ fun x found => by cases found
    simp only [List.forall_mem_cons]
    refine ⟨lasting_dividing.array ?_, lasting_dividing.bool _,
      lasting_dividing.integer _ _, List.forall_mem_nil _⟩
    simp only [List.forall_mem_cons]
    exact ⟨lasting_dividing.string _, lasting_dividing.string _, List.forall_mem_nil _⟩
  obtain ⟨_, ends, runs, rest⟩ := canonicalize_terminates Dialect.official
    (some Dialect.draft202012) document distinct precise 10000 enough
  exact ⟨distinct, precise, enough, divides, ends, runs divides, rest⟩

end SchemaPack
