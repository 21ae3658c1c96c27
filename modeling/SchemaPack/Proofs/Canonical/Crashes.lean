import SchemaPack.Proofs.Canonical.Identity
import SchemaPack.Proofs.Canonical.Lasting
import SchemaPack.Proofs.Canonical.Respect
import SchemaPack.Proofs.Rules.Lockstep

namespace SchemaPack

open Json

section Rules

variable {node : Json}

theorem Collapse.multipleAdmits?_ne_none (divides : Dividing node) (value : Number) :
    multipleAdmits? node value ≠ none := by
  unfold multipleAdmits?
  split
  · exact nofun
  · rename_i multiple found
    split
    · rename_i whole
      split
      · rename_i m v word _
        split
        · exact nofun
        · split
          · rename_i overflow
            have integral := (Bool.and_eq_true_iff.mp whole).1
            have least := toInt_of_word? word
            rw [overflow.2] at least
            refine absurd ?_ (divides multiple found)
            rw [Number.exact_eq_of_isIntegral integral .down, ← least]
            decide
          · exact nofun
      · exact nofun
    · exact nofun
  · exact nofun

theorem Collapse.duplicates_uncrashed (precise : node.Precise) (name keyword vocabulary : String)
    (context : Context) : (duplicates name keyword vocabulary).crashes node context = false := by
  simp only [duplicates]
  cases found : node.arrayAt? keyword with
  | none => rw [Option.any_none, Bool.and_false]
  | some values =>
    have orderable := orderable_of_arrayAt? precise found
    rw [Option.any_some, hasDuplicates_eq orderable, sortUnique_eq orderable, Option.isNone_some]
    dsimp only
    rw [Bool.and_false, Bool.and_false]

theorem Collapse.requiredCount_uncrashed (precise : node.Precise) (context : Context) :
    requiredCount.crashes node context = false := by
  simp only [requiredCount]
  cases found : node.arrayAt? "required" with
  | none => rw [Option.any_none, Bool.and_false]
  | some required =>
    rw [Option.any_some, hasDuplicates_eq (orderable_of_arrayAt? precise found),
      Option.isNone_some, Bool.and_false]

/-- Where comparison orders all that may be sorted, only a division can crash. -/
theorem canonicalRules_sorting_uncrashed (precise : node.Precise) (context : Context) :
    ∀ rule ∈ canonicalRules, rule ≠ Collapse.equalBounds → rule.crashes node context = false := by
  intro rule listed
  rcases canonicalRules_safe rule listed with hazardous | safe
  · clear listed
    revert rule
    simp only [Collapse.hazardous, List.forall_mem_cons]
    exact ⟨fun other => absurd rfl other, fun _ => Collapse.requiredCount_uncrashed precise context,
      fun _ => Collapse.duplicates_uncrashed precise _ _ _ _,
      fun _ => Collapse.duplicates_uncrashed precise _ _ _ _,
      fun _ => Collapse.duplicates_uncrashed precise _ _ _ _,
      fun _ => Collapse.duplicates_uncrashed precise _ _ _ _, List.forall_mem_nil _⟩
  · exact fun _ => safe node context

theorem canonicalRules_uncrashed (precise : node.Precise) (divides : Dividing node)
    (context : Context) : ∀ rule ∈ canonicalRules, rule.crashes node context = false := by
  intro rule listed
  by_cases division : rule = Collapse.equalBounds
  · subst division
    have decided : (Collapse.pinned? node).any
        (fun value => Collapse.multipleAdmits? node value == none) = false := by
      refine (Option.any_eq_false _ _).mpr fun value _ => ?_
      exact beq_eq_false_iff_ne.mpr (Collapse.multipleAdmits?_ne_none divides value)
    simp only [Collapse.equalBounds, decided, Bool.and_false]
  · exact canonicalRules_sorting_uncrashed precise context rule listed division

end Rules

namespace Fresh

variable {resolver : Resolver} {inherited : String} {pointer : Pointer} {steps : Nat}

theorem settle_eq_or_object {node settled : Json} {context : Context}
    (h : (settle canonicalRules resolver inherited pointer steps node).result =
      .ok (context, settled)) : settled = node ∨ settled.isObject = true := by
  refine (settle_gives (fun left => left = node ∨ left.isObject = true) ?_ (.of_result h)
    (.inl rfl)).2
  intro rule listed node context _ applies _ _
  by_cases truth : rule = Spelling.trueSchema
  · rw [truth]
    exact .inr rfl
  · exact .inr (isObject_transform listed applies (isObject_of_condition listed truth applies))

theorem visit_number {node : Json} {x : Number}
    (h : (visit canonicalRules Keyword.find? resolver steps inherited pointer node).result =
      .ok (.number x)) : node = .number x := by
  cases steps with
  | zero => cases h
  | succ steps =>
    obtain ⟨⟨context, settled⟩, here, left⟩ := Traced.bind_result_ok h
    cases settled with
    | object members =>
      obtain ⟨_, _, last⟩ := Traced.bind_result_ok left
      cases last
    | number =>
      cases left
      rcases settle_eq_or_object here with same | object
      · exact same.symm
      · cases object
    | null | bool | string | array => cases left

section Upheld

variable {P : Json → Prop} (lasting : Lasting P)

include lasting

theorem settle_throughout {node settled : Json} {context : Context}
    (h : (settle canonicalRules resolver inherited pointer steps node).result =
      .ok (context, settled))
    (holds : node.Throughout P) : settled.Throughout P := by
  refine (settle_gives (Json.Throughout P) ?_ (.of_result h) holds).2
  intro rule listed node context _ applies _
  exact canonicalRules_uphold lasting rule listed node context applies

omit lasting in
theorem visitMembers_throughout {visit : String → Json → Traced Json} {members results : Members}
    (each : ∀ name value result, (visit name value).result = .ok result → value.Throughout P →
      result.Throughout P)
    (h : (visitMembers visit members).result = .ok results)
    (holds : ∀ entry ∈ members, entry.2.Throughout P) :
    ∀ entry ∈ results, entry.2.Throughout P := by
  intro entry listed
  obtain ⟨⟨name, value⟩, before, _, given⟩ :=
    exists_of_forall₂ (visitMembers_gives (.of_result h)) listed
  exact each name value entry.2 given.1 (holds _ before)

theorem visitKeyword_throughout {look : Pointer → Json → Traced Json}
    (each : ∀ pointer node result, (look pointer node).result = .ok result → node.Throughout P →
      result.Throughout P)
    (numbers : ∀ pointer node x, (look pointer node).result = .ok (.number x) → node = .number x)
    {vocabularies : Vocabularies} {name : String} {value result : Json}
    (h : (visitKeyword Keyword.find? look vocabularies pointer name value).result = .ok result)
    (holds : value.Throughout P) : result.Throughout P := by
  unfold visitKeyword at h
  split at h
  · exact each _ _ _ h holds
  · obtain ⟨results, visited, last⟩ := Traced.bind_result_ok h
    cases last
    refine lasting.array fun result listed => ?_
    obtain ⟨item, among, _, given⟩ := exists_of_forall₂ (visitItems_forall₂ visited) listed
    exact each _ _ _ given ((throughout_array.mp holds).2 item among)
  · obtain ⟨results, visited, last⟩ := Traced.bind_result_ok h
    cases last
    rw [visitEntries_eq] at visited
    refine lasting.members ?_ fun x found => .inr ⟨_, ?_, holds.self⟩
    · exact visitMembers_throughout (fun _ => each _) visited holds.entries
    · rcases rel_cases (visitMembers_get? visited "multipleOf") with
        ⟨_, none⟩ | ⟨value, _, had, same, given⟩
      · cases none.symm.trans found
      · cases same.symm.trans found
        rw [get?_object, had, numbers _ _ _ given]
  · cases h
    exact holds

theorem visit_throughout {node result : Json}
    (h : (visit canonicalRules Keyword.find? resolver steps inherited pointer node).result =
      .ok result)
    (holds : node.Throughout P) : result.Throughout P := by
  induction steps generalizing inherited pointer node result with
  | zero => cases h
  | succ steps ih =>
    obtain ⟨⟨context, settled⟩, here, left⟩ := Traced.bind_result_ok h
    have inside := settle_throughout lasting here holds
    cases settled with
    | object members =>
      obtain ⟨results, visited, last⟩ := Traced.bind_result_ok left
      cases last
      have alike := visitKeywords_alike visited
      rw [visitKeywords_eq] at visited
      refine lasting.members ?_ fun x found => .inr ⟨_, ?_, inside.self⟩
      · refine visitMembers_throughout (fun name value result given holds => ?_) visited
          inside.entries
        exact visitKeyword_throughout lasting (fun _ _ _ => ih) (fun _ _ _ => visit_number) given
          holds
      · exact (alike.get? (by decide)).trans found
    | null | bool | number | string | array =>
      cases left
      exact inside

end Upheld

theorem visitKeyword_error {look : Pointer → Json → Traced Json} {vocabularies : Vocabularies}
    {name : String} {value : Json} {stop : Stop}
    (h : (visitKeyword Keyword.find? look vocabularies pointer name value).result = .error stop) :
    ∃ place node, (∀ P, value.Throughout P → node.Throughout P) ∧
      (look place node).result = .error stop := by
  unfold visitKeyword at h
  split at h
  · exact ⟨_, _, fun _ => id, h⟩
  · rcases Traced.bind_result_error h with failed | ⟨_, _, last⟩
    · obtain ⟨item, listed, place, failed⟩ := visitItems_error failed
      exact ⟨place, item, fun _ holds => (throughout_array.mp holds).2 item listed, failed⟩
    · cases last
  · rcases Traced.bind_result_error h with failed | ⟨_, _, last⟩
    · rw [visitEntries_eq] at failed
      obtain ⟨entry, listed, failed⟩ := visitMembers_error failed
      exact ⟨_, entry.2, fun _ holds => holds.entries entry listed, failed⟩
    · cases last
  · cases h

section Crashless

structure Harmless (node : Json) : Prop where
  sharp : node.Throughout Sharp
  divides : node.Throughout Dividing

theorem settle_uncrashed {node : Json} (harmless : Harmless node) :
    (settle canonicalRules resolver inherited pointer steps node).result ≠ .error .crashed := by
  induction steps generalizing node with
  | zero => exact nofun
  | succ steps ih =>
    intro crashed
    rw [settle] at crashed
    rcases Traced.bind_result_error crashed with failed | ⟨context, _, crashed⟩
    · exact Traced.ofExcept_uncrashed _ failed
    have uncrashed := canonicalRules_uncrashed ((precise_iff node).mpr harmless.sharp)
      harmless.divides.self context
    -- no rule crashes on the way, and the one that is applied leaves a node as harmless
    rw [Rule.first_eq_find? uncrashed, pure_bind, Traced.bind_ok (Traced.emit_result _)] at crashed
    cases matched : canonicalRules.find? (·.condition node context) with
    | none =>
      rw [matched] at crashed
      cases crashed
    | some rule =>
      rw [matched] at crashed
      have listed := List.mem_of_find?_eq_some matched
      have applies := List.find?_some matched
      refine ih ⟨?_, ?_⟩ crashed
      · exact canonicalRules_uphold lasting_sharp rule listed node context applies harmless.sharp
      · exact canonicalRules_uphold lasting_dividing rule listed node context applies
          harmless.divides

theorem visit_uncrashed {node : Json} (harmless : Harmless node) :
    (visit canonicalRules Keyword.find? resolver steps inherited pointer node).result ≠
      .error .crashed := by
  induction steps generalizing inherited pointer node with
  | zero => exact nofun
  | succ steps ih =>
    intro crashed
    rcases Traced.bind_result_error crashed with failed | ⟨⟨context, settled⟩, here, later⟩
    · exact settle_uncrashed harmless failed
    have sharp := settle_throughout lasting_sharp here harmless.sharp
    have divides := settle_throughout lasting_dividing here harmless.divides
    cases settled with
    | object members =>
      rcases Traced.bind_result_error later with failed | ⟨_, _, last⟩
      · rw [visitKeywords_eq] at failed
        obtain ⟨entry, listed, failed⟩ := visitMembers_error failed
        obtain ⟨_, node, inside, failed⟩ := visitKeyword_error failed
        exact ih ⟨inside _ (sharp.entries entry listed), inside _ (divides.entries entry listed)⟩
          failed
      · cases last
    | null | bool | number | string | array => cases later

theorem runPasses_uncrashed {number applied : Nat} {document : Json} (harmless : Harmless document) :
    (runPasses canonicalRules Keyword.find? resolver inherited steps number applied
      document).result ≠ .error .crashed := by
  induction steps generalizing number applied document with
  | zero => exact nofun
  | succ steps ih =>
    intro crashed
    rcases Traced.bind_result_error crashed with failed | ⟨result, given, later⟩
    · exact visit_uncrashed harmless failed
    rw [Traced.bind_ok (Traced.emit_result _)] at later
    split at later
    · refine ih ⟨?_, ?_⟩ later
      · exact visit_throughout lasting_sharp given harmless.sharp
      · exact visit_throughout lasting_dividing given harmless.divides
    · cases later

end Crashless

end Fresh

/-- Canonicalization never crashes where comparison orders whatever is in the document and nothing
    in it divides by `-1`. -/
theorem canonicalize_uncrashed (resolver : Resolver) (default : Option String) {document : Json}
    (precise : document.Precise) (divides : document.Throughout Dividing) (limit : Nat) :
    (canonicalize resolver default document limit).result ≠ .error .crashed := by
  intro crashed
  rw [canonicalize, saturate_eq] at crashed
  rcases Traced.bind_result_error crashed with failed | ⟨_, _, crashed⟩
  · exact Traced.ofExcept_uncrashed _ failed
  · exact Fresh.runPasses_uncrashed ⟨(precise_iff document).mp precise, divides⟩ crashed

end SchemaPack
