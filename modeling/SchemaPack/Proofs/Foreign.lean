import SchemaPack.Proofs.Canonical.References
import SchemaPack.Proofs.Canonical.Respect
import SchemaPack.Proofs.Plan.Respect
import SchemaPack.Proofs.Rejection
import SchemaPack.Proofs.Rules.Replay

namespace SchemaPack

open Relation (ReflTransGen)

theorem Rule.Respects.keepsDistinct {rule : Rule} (respects : rule.Respects (Json.Respelled id)) :
    rule.KeepsDistinct :=
  fun node context applies distinct =>
    (respects.transform node node context (.refl distinct) applies).left

theorem canonicalRules_keepDistinct : ∀ rule ∈ canonicalRules, rule.KeepsDistinct :=
  fun rule listed => (canonicalRules_respect Json.respelling_id rule listed).keepsDistinct

theorem planRules_keepDistinct : ∀ rule ∈ planRules, rule.KeepsDistinct :=
  fun rule listed => (planRules_respect Json.respelling_id rule listed).keepsDistinct

namespace Subschema

variable {walker : Walker} {resolver : Resolver}

/-- The name of a keyword leads from a node to a subschema, and a second token where the keyword has
    more than one. -/
structure Leads (walker : Walker) (resolver : Resolver) (site child : Site) (context : Context)
    (name : String) (role : Role) (rest : List String) : Prop where
  here : Context.of resolver site.inherited site.pointer site.node = .ok context
  named : (walker context.vocabularies name).map Keyword.role = some role
  holds : role.holdsSubschemas = true
  inherited : child.inherited = context.dialect
  lies : child.pointer.tokens = site.pointer.tokens ++ name :: rest
  length : rest.length = if role = .subschema then 0 else 1

theorem exists_leads {site child : Site} (step : Subschema walker resolver site child) :
    ∃ context name role rest, Leads walker resolver site child context name role rest := by
  cases step with
  | value here _ named => exact ⟨_, _, _, [], here, named, rfl, rfl, rfl, rfl⟩
  | @element _ pointer _ _ name _ index _ here _ named =>
    have lies : ((pointer.child name).item index).tokens =
        pointer.tokens ++ [name, toString index] := by
      simp [Pointer.item, Pointer.child]
    exact ⟨_, _, _, _, here, named, rfl, rfl, lies, rfl⟩
  | @member _ pointer _ _ name _ key _ here _ named =>
    have lies : ((pointer.child name).child key).tokens = pointer.tokens ++ [name, key] := by
      simp [Pointer.child]
    exact ⟨_, _, _, _, here, named, rfl, rfl, lies, rfl⟩

theorem eq_of_pointer {site first second : Site} (distinct : site.node.Distinct)
    (one : Subschema walker resolver site first) (other : Subschema walker resolver site second)
    (inherited : first.inherited = second.inherited) (place : first.pointer = second.pointer) :
    first = second := by
  obtain ⟨path, lies, selected, _⟩ := exists_descent one distinct
  obtain ⟨again, same, found, _⟩ := exists_descent other distinct
  rw [place, same, List.append_cancel_left_eq] at lies
  rw [lies, selected] at found
  cases first
  cases second
  cases inherited
  cases place
  cases found
  rfl

theorem unique {site first second : Site} {place : Pointer} (distinct : site.node.Distinct)
    (one : Subschema walker resolver site first) (other : Subschema walker resolver site second)
    (here : first.pointer.Covers place) (there : second.pointer.Covers place) : first = second := by
  obtain ⟨context, name, role, rest, leads⟩ := exists_leads one
  obtain ⟨_, same, _, more, also⟩ := exists_leads other
  cases leads.here.symm.trans also.here
  obtain ⟨below, beyond⟩ := here
  obtain ⟨under, past⟩ := there
  rw [leads.lies, List.append_assoc, List.cons_append] at beyond
  rw [also.lies, List.append_assoc, List.cons_append, ← beyond, List.append_cancel_left_eq,
    List.cons.injEq] at past
  obtain ⟨rfl, tokens⟩ := past
  cases leads.named.symm.trans also.named
  have length := also.length.trans leads.length.symm
  have tail := List.append_inj_left tokens length
  refine eq_of_pointer distinct one other (leads.inherited.trans also.inherited.symm) ?_
  apply congrArg Pointer.mk
  rw [leads.lies, also.lies, tail]

theorem covers_of_reached {site below : Site}
    (reached : ReflTransGen (Subschema walker resolver) site below) :
    site.pointer.Covers below.pointer := by
  induction reached with
  | refl => exact .refl _
  | tail _ step ih =>
    obtain ⟨_, _, _, _, leads⟩ := exists_leads step
    exact ih.trans (leads.lies ▸ List.prefix_append _ _)

/-- What is reached and lies above another site that is reached lies on the way to it. -/
theorem reaches_of_covers {site upper lower : Site} (distinct : site.node.Distinct)
    (above : ReflTransGen (Subschema walker resolver) site upper)
    (below : ReflTransGen (Subschema walker resolver) site lower)
    (covers : upper.pointer.Covers lower.pointer) :
    ReflTransGen (Subschema walker resolver) upper lower := by
  -- Both ways take the same step until the upper site is reached, as a place can be approached in
  -- one way only.
  induction above using ReflTransGen.head_induction_on with
  | refl => exact below
  | @head site child step later ih =>
    have within : child.pointer.Covers lower.pointer := (covers_of_reached later).trans covers
    rcases below.cases_head with rfl | ⟨other, first, rest⟩
    · obtain ⟨_, _, _, _, leads⟩ := exists_leads step
      have shorter := within.length_le
      rw [leads.lies, List.length_append, List.length_cons] at shorter
      omega
    · cases unique distinct step first within (covers_of_reached rest)
      obtain ⟨_, descent⟩ := exists_descent step distinct
      exact ih (Pointer.distinct_of_select? distinct descent.selected) rest

end Subschema

namespace Vocabularies.Foreign

variable {resolver : Resolver} {site : Site} {context : Context}
  (foreign : Vocabularies.Foreign context.vocabularies)
  (here : Context.of resolver site.inherited site.pointer site.node = .ok context)

include foreign

theorem planRules_idle (node : Json) : ∀ rule ∈ planRules, rule.condition node context = false := by
  intro rule listed
  rw [← Bool.not_eq_true]
  intro applies
  obtain ⟨plannable, _⟩ := planRules_plan rule listed node context applies
  obtain ⟨_, validated, _⟩ := isPlannable_iff.mp plannable
  exact foreign Vocabulary.validation (by decide) validated

include here

theorem not_subschema (child : Site) : ¬Subschema Keyword.find? resolver site child := by
  intro step
  obtain ⟨_, name, role, _, leads⟩ := Subschema.exists_leads step
  cases here.symm.trans leads.here
  have none := foreign.holds_none name
  rw [leads.named, Option.all_some, leads.holds] at none
  cases none

end Vocabularies.Foreign

namespace Fresh

/-- A run looks at nothing below a site of a foreign dialect, and applies nothing to it. -/
theorem Meets.untouched {rules : List Rule} {resolver : Resolver} {dialect : String}
    {current node : Json} {context : Context} {applied : Option Rule}
    (idle : ∀ context node, Vocabularies.Foreign context.vocabularies →
      ∀ rule ∈ rules, rule.condition node context = false)
    (met : Meets rules Keyword.find? resolver dialect current (.examined context node applied))
    {site : Site} {own : Context}
    (reached : ReflTransGen (Subschema Keyword.find? resolver) ⟨dialect, .root, current⟩ site)
    (here : Context.of resolver site.inherited site.pointer site.node = .ok own)
    (foreign : Vocabularies.Foreign own.vocabularies)
    (covers : site.pointer.Covers context.pointer) :
    context.pointer = site.pointer ∧ applied = none := by
  obtain ⟨inherited, stands, there, rfl⟩ := met
  have way := Subschema.reaches_of_covers stands.distinct reached
    (stands.reached Keyword.find?_overlooks) covers
  rcases way.cases_head with rfl | ⟨child, step, _⟩
  · cases here.symm.trans there
    refine ⟨rfl, ?_⟩
    rw [List.find?_eq_none]
    intro rule listed
    rw [idle context node foreign rule listed]
    exact Bool.false_ne_true
  · exact absurd step (foreign.not_subschema here child)

end Fresh

/-- A site whose context is known and foreign. -/
def Site.Foreign (resolver : Resolver) (site : Site) : Prop :=
  ∃ context, Context.of resolver site.inherited site.pointer site.node = .ok context ∧
    Vocabularies.Foreign context.vocabularies

section Stages

variable (resolver : Resolver) (dialect : String)

/-- What either pass looks at stands in the document as it has become by then. -/
def Stage.Meets (current : Json) (event : Event) : Prop :=
  ∃ rules ∈ [canonicalRules, planRules],
    Fresh.Meets rules Keyword.find? (Encoding.resolver resolver) dialect current event

variable {resolver dialect} {default : Option String} {document : Json}

theorem canonicalize_replays (distinct : document.Distinct)
    (root : Dialect.ofDocument document default = .ok dialect) (limit : Nat) :
    (canonicalize resolver default document limit).Replays (Stage.Meets resolver dialect) document
      fun canonical final => final = canonical ∧ canonical.Distinct ∧
        Dialect.ofDocument canonical default = .ok dialect := by
  apply (exists_replay canonicalRules_keepDistinct distinct root limit).mono
  · exact fun _ _ met => ⟨_, List.mem_cons_self, met⟩
  · rintro canonical _ given ⟨rfl, distinct⟩
    exact ⟨rfl, distinct, (canonicalize_ofDocument given).trans root⟩

theorem plan_replays (distinct : document.Distinct)
    (root : Dialect.ofDocument document default = .ok dialect) (limit : Nat) :
    (plan resolver default document limit).Replays (Stage.Meets resolver dialect) document
      fun _ _ => True := by
  rw [plan, root, Traced.ofExcept_ok_bind]
  refine .ofExcept_bind fun base _ => ?_
  split
  · exact .stop _
  · have planned : (saturate planRules (Encoding.resolver resolver) default document limit).Replays
        _ document _ := exists_replay planRules_keepDistinct distinct root limit
    refine (planned.mono ?_ fun _ _ _ => id).bind fun result final _ => ?_
    · exact fun _ _ met => ⟨_, List.mem_cons_of_mem _ List.mem_cons_self, met⟩
    · refine .ofExcept_bind fun own _ => ?_
      split
      · exact .pure trivial
      · refine .emit_bind ⟨_, List.mem_cons_self, trivial⟩ rfl (.pure trivial)

theorem Stage.run_replays (stage : Stage) (distinct : document.Distinct)
    (root : Dialect.ofDocument document default = .ok dialect) (limit : Nat) :
    (stage.run resolver default document limit).Replays (Stage.Meets resolver dialect) document
      fun _ _ => True := by
  cases stage with
  | compile =>
    refine (canonicalize_replays distinct root limit).bind ?_
    rintro canonical _ ⟨rfl, distinct, still⟩
    exact plan_replays distinct still limit
  | canonicalize =>
    exact (canonicalize_replays distinct root limit).mono (fun _ _ => id) fun _ _ _ _ => trivial
  | plan => exact plan_replays distinct root limit

theorem Stage.Meets.untouched {current node : Json} {context : Context} {applied : Option Rule}
    (met : Stage.Meets resolver dialect current (.examined context node applied)) {site : Site}
    (reached : ReflTransGen (Subschema Keyword.find? (Encoding.resolver resolver))
      ⟨dialect, .root, current⟩ site)
    (foreign : site.Foreign (Encoding.resolver resolver))
    (covers : site.pointer.Covers context.pointer) :
    context.pointer = site.pointer ∧ applied = none := by
  obtain ⟨own, here, foreign⟩ := foreign
  obtain ⟨rules, listed, met⟩ := met
  simp only [List.mem_cons, List.not_mem_nil, or_false] at listed
  rcases listed with rfl | rfl
  · exact met.untouched (fun _ node foreign => (foreign.idle rfl node).unmatched) reached here foreign covers
  · exact met.untouched (fun _ node foreign => foreign.planRules_idle node) reached here foreign
      covers

theorem Stage.Meets.root_foreign {node : Json} {context : Context} {applied : Option Rule}
    {vocabularies : Vocabularies} (root : Dialect.ofDocument document default = .ok dialect)
    (active : Dialect.vocabularies (Encoding.resolver resolver) dialect = .ok vocabularies)
    (foreign : vocabularies.Foreign)
    (met : Stage.Meets resolver dialect document (.examined context node applied)) :
    Site.Foreign (Encoding.resolver resolver) ⟨dialect, .root, document⟩ := by
  obtain ⟨rules, _, inherited, stands, there, _⟩ := met
  have known : ∃ own, Context.of (Encoding.resolver resolver) dialect .root document = .ok own := by
    rcases (stands.reached Keyword.find?_overlooks).cases_head with same | ⟨child, step, _⟩
    · injection same with outer place whole
      subst outer whole
      exact ⟨context, place ▸ there⟩
    · obtain ⟨own, _, _, _, leads⟩ := Subschema.exists_leads step
      exact ⟨own, leads.here⟩
  obtain ⟨own, here⟩ := known
  obtain ⟨_, _, found, _⟩ := Dialect.context_of_ofDocument root rfl here
  cases active.symm.trans found
  exact ⟨own, here, foreign⟩

theorem Stage.Meets.rests {vocabularies : Vocabularies}
    (root : Dialect.ofDocument document default = .ok dialect)
    (active : Dialect.vocabularies (Encoding.resolver resolver) dialect = .ok vocabularies)
    (foreign : vocabularies.Foreign) {event : Event}
    (met : Stage.Meets resolver dialect document event) :
    event.isApplication = false ∧ event.replay? document = some document ∧
      ∀ place, event.place? = some place → place = .root := by
  cases event with
  | examined context node applied =>
    have covers : Pointer.root.Covers context.pointer := List.nil_prefix
    obtain ⟨here, rfl⟩ := met.untouched .refl (met.root_foreign root active foreign) covers
    refine ⟨rfl, rfl, fun place looked => ?_⟩
    cases looked
    exact here
  | passed | settled | fellBack => exact ⟨rfl, rfl, nofun⟩

end Stages

/-- Foreign dialects pass through. Whatever stage is run, nothing below a site of a foreign dialect
    is looked at and no rule is applied to it while it is where it is. In a document of a foreign
    dialect only the root is looked at, and canonicalization gives it back if it gives anything. -/
theorem foreign_untouched (resolver : Resolver) (default : Option String) (document : Json)
    (dialect : String) (limit : Nat) (distinct : document.Distinct)
    (root : Dialect.ofDocument document default = .ok dialect) :
    (∀ (stage : Stage) before context node applied after,
      (stage.run resolver default document limit).events =
          before ++ .examined context node applied :: after →
        ∃ current, replay? before document = some current ∧ ∀ site,
          ReflTransGen (Subschema Keyword.find? (Encoding.resolver resolver))
              ⟨dialect, .root, current⟩ site →
            site.Foreign (Encoding.resolver resolver) → site.pointer.Covers context.pointer →
              context.pointer = site.pointer ∧ applied = none) ∧
      ∀ vocabularies,
        Dialect.vocabularies (Encoding.resolver resolver) dialect = .ok vocabularies →
          vocabularies.Foreign →
            let run := canonicalize resolver default document limit
            run.applications = 0 ∧ (∀ place ∈ run.examined, place = .root) ∧
              ∀ result, run.result = .ok result → result = document := by
  constructor
  · intro stage before context node applied after split
    obtain ⟨final, replay, _⟩ := stage.run_replays distinct root limit
    obtain ⟨current, earlier, met⟩ := Replay.met (split ▸ replay)
    exact ⟨current, earlier, fun site reached foreign covers => met.untouched reached foreign covers⟩
  · intro vocabularies active foreign run
    have replays : run.Replays (Stage.Meets resolver dialect) document _ :=
      canonicalize_replays distinct root limit
    obtain ⟨final, replay, left⟩ := replays
    have rests := fun event (met : Stage.Meets resolver dialect document event) =>
      met.rests root active foreign
    obtain ⟨rfl, each⟩ := replay.still fun event met => (rests event met).2.1
    refine ⟨?_, ?_, fun result given => (left result given).1.symm⟩
    · rw [Traced.applications, List.countP_eq_zero]
      intro event listed
      rw [(rests event (each event listed)).1]
      exact Bool.false_ne_true
    · intro place looked
      obtain ⟨event, listed, named⟩ := List.mem_filterMap.mp looked
      exact (rests event (each event listed)).2.2 place named

/-- A schema of draft 7 stays what it is among the properties of a schema of draft 2020-12 that is
    rewritten, and as a document of its own. -/
theorem foreign_untouched_draft07 :
    let resolver := Encoding.resolver Dialect.official
    let legacy := Json.object [("$schema", .string (Dialect.draft07 ++ "#")),
      ("type", .array [.string "string"]),
      ("not", .object [("$schema", .string Dialect.draft202012), ("const", .null)])]
    let document := Json.object [("type", .array [.string "object"]),
      ("properties", .object [("old", legacy)])]
    let canonical := Json.object [("type", .string "object"),
      ("properties", .object [("old", legacy)]), ("minProperties", .number (.integer 0)),
      ("required", .array [])]
    let old : Site := ⟨Dialect.draft202012, (Pointer.root.child "properties").child "old", legacy⟩
    let run := canonicalize Dialect.official (some Dialect.draft202012) document 30
    let alone := canonicalize Dialect.official none legacy 30
    run.result = .ok canonical ∧
      ReflTransGen (Subschema Keyword.find? resolver) ⟨Dialect.draft202012, .root, document⟩ old ∧
        old.Foreign resolver ∧
          (∀ before context node applied after,
            run.events = before ++ .examined context node applied :: after →
              ∃ current, replay? before document = some current ∧ ∀ site,
                ReflTransGen (Subschema Keyword.find? resolver)
                    ⟨Dialect.draft202012, .root, current⟩ site →
                  site.Foreign resolver → site.pointer.Covers context.pointer →
                    context.pointer = site.pointer ∧ applied = none) ∧
            alone.applications = 0 ∧ alone.examined = [.root] ∧
              ∀ result, alone.result = .ok result → result = legacy := by
  intro resolver legacy document canonical old run alone
  have root : Dialect.ofDocument document (some Dialect.draft202012) =
      .ok Dialect.draft202012 := by decide +kernel
  have own : Dialect.ofDocument legacy none = .ok Dialect.draft07 := by decide +kernel
  have active : Dialect.vocabularies resolver Dialect.draft07 = .ok [Dialect.draft07] := by
    decide +kernel
  have foreign : Vocabularies.Foreign [Dialect.draft07] := by decide +kernel
  have embedded := foreign_untouched Dialect.official (some Dialect.draft202012) document
    Dialect.draft202012 30 (by decide) root
  have whole := foreign_untouched Dialect.official none legacy Dialect.draft07 30 (by decide) own
  obtain ⟨quiet, _, same⟩ := whole.2 _ active foreign
  have step : Subschema Keyword.find? resolver ⟨Dialect.draft202012, .root, document⟩ old :=
    .member (Context.of_draft202012 _ rfl) (List.mem_cons_of_mem _ List.mem_cons_self)
      (by decide +kernel) List.mem_cons_self
  have known : Context.of resolver old.inherited old.pointer old.node =
      .ok ⟨Dialect.draft07, Dialect.draft07, [Dialect.draft07], old.pointer⟩ := by
    decide +kernel
  exact ⟨by decide +kernel, .single step, ⟨_, known, foreign⟩,
    embedded.1 .canonicalize, quiet, by decide +kernel, same⟩

end SchemaPack
