import SchemaPack.CommandLine.Run
import SchemaPack.Proofs.Foreign
import SchemaPack.Proofs.Json.Escape

namespace SchemaPack

open Relation (ReflTransGen)

theorem Stage.exists_dialect_of_examined {stage : Stage} {resolver : Resolver}
    {default : Option String} {document : Json} {limit : Nat} {event : Event}
    (listed : event ∈ (stage.run resolver default document limit).events) :
    ∃ dialect, Dialect.ofDocument document default = .ok dialect := by
  cases root : Dialect.ofDocument document default with
  | ok dialect => exact ⟨dialect, rfl⟩
  | error failure =>
    have saturated : ∀ rules, saturate rules (Encoding.resolver resolver) default document limit =
        Traced.stop (.failed failure) := by
      intro rules
      rw [saturate_eq, root]
      rfl
    have none : stage.run resolver default document limit = Traced.stop (.failed failure) := by
      cases stage with
      | compile =>
        rw [run, SchemaPack.compile, SchemaPack.canonicalize, saturated]
        rfl
      | canonicalize => exact saturated _
      | plan =>
        rw [run, SchemaPack.plan, root]
        rfl
    rw [none] at listed
    cases listed

theorem Stage.exists_stands {stage : Stage} {resolver : Resolver} {default : Option String}
    {document node : Json} {limit : Nat} {before after : List Event} {context : Context}
    {applied : Option Rule} (distinct : document.Distinct)
    (split : (stage.run resolver default document limit).events =
      before ++ .examined context node applied :: after) :
    ∃ dialect inherited current, replay? before document = some current ∧
      Stands Keyword.find? (Encoding.resolver resolver) dialect current
        ⟨inherited, context.pointer, node⟩ := by
  have listed : Event.examined context node applied ∈
      (stage.run resolver default document limit).events := by
    rw [split]
    exact List.mem_append_right _ List.mem_cons_self
  obtain ⟨dialect, root⟩ := exists_dialect_of_examined listed
  obtain ⟨_, replay, _⟩ := stage.run_replays distinct root limit
  obtain ⟨current, earlier, _, _, inherited, stands, _⟩ := Replay.met (split ▸ replay)
  exact ⟨dialect, inherited, current, earlier, stands⟩

namespace Settings

def withPointer (settings : Settings) (text : String) : Settings :=
  { settings with pointer := some text }

theorem select_of_select? (settings : Settings) {p : Pointer} {document node : Json}
    (held : p.select? document = some node) :
    (settings.withPointer p.text).select document = .ok node := by
  rw [select]
  simp only [withPointer, Pointer.ofText?_text, Option.bind_some, held]

end Settings

/-- The text of a pointer says what the pointer says. It is made by two replacements in each token,
    and undone by two in the other order between the slashes, so pointers differ in their texts. The
    text of the pointer to a subschema selects it in its document. A stage looks at nothing but
    subschemas of the document as it has become by then, each with its own pointer. -/
theorem Pointer.text_faithful :
    (∀ p : Pointer,
      p.text = String.ofList (p.tokens.flatMap fun token => '/' :: escapeInTurn token.toList) ∧
        tokensOf p.text = p.tokens) ∧
      Function.Injective text ∧
      ∀ (document : Json) (settings : Settings), document.Distinct →
        (∀ walker resolver dialect site,
          ReflTransGen (Subschema walker resolver) ⟨dialect, .root, document⟩ site →
            (settings.withPointer site.pointer.text).select document = .ok site.node) ∧
          ∀ (stage : Stage) resolver default limit before context node applied after,
            (stage.run resolver default document limit).events =
                before ++ .examined context node applied :: after →
              ∃ dialect inherited current, replay? before document = some current ∧
                ReflTransGen (Subschema Keyword.find? (Encoding.resolver resolver))
                    ⟨dialect, .root, current⟩ ⟨inherited, context.pointer, node⟩ ∧
                  (settings.withPointer context.pointer.text).select current = .ok node := by
  refine ⟨fun p => ⟨p.text_eq, p.tokensOf_text⟩, text_injective, ?_⟩
  intro document settings distinct
  constructor
  · intro walker resolver dialect site reached
    exact settings.select_of_select? (Subschema.select?_of_reached reached distinct)
  · intro stage resolver default limit before context node applied after split
    obtain ⟨dialect, inherited, current, earlier, stands⟩ := Stage.exists_stands distinct split
    exact ⟨dialect, inherited, current, earlier, stands.reached Keyword.find?_overlooks,
      settings.select_of_select? stands.held⟩

/-- The name of a property may look as if it were escaped already. -/
theorem Pointer.text_faithful_escaped :
    let inner := Json.object [("const", .null)]
    let branches := Json.object [("anyOf", .array [.bool true, inner])]
    let document := Json.object [("properties", .object [("", .bool true), ("~1/", branches)])]
    let place := (((Pointer.root.child "properties").child "~1/").child "anyOf").item 1
    let settings : Settings := { inputs := ["schema.json"] }
    let resolver := Encoding.resolver Dialect.official
    let run := Stage.plan.run Dialect.official (some Dialect.draft202012) document 9
    document.Distinct ∧
      ReflTransGen (Subschema Keyword.find? resolver) ⟨Dialect.draft202012, .root, document⟩
          ⟨Dialect.draft202012, place, inner⟩ ∧
        place.text = "/properties/~01~1/anyOf/1" ∧
          (settings.withPointer place.text).select document = .ok inner ∧
            run.examined.map Pointer.text = ["", "/properties/", "/properties/~01~1",
              "/properties/~01~1/anyOf/0", "/properties/~01~1/anyOf/1"] ∧
              ∀ before context node applied after,
                run.events = before ++ .examined context node applied :: after →
                  ∃ dialect inherited current, replay? before document = some current ∧
                    ReflTransGen (Subschema Keyword.find? resolver)
                        ⟨dialect, .root, current⟩ ⟨inherited, context.pointer, node⟩ ∧
                      (settings.withPointer context.pointer.text).select current = .ok node := by
  intro inner branches document place settings resolver run
  have distinct : document.Distinct := by decide
  have property : Subschema Keyword.find? resolver ⟨Dialect.draft202012, .root, document⟩
      ⟨Dialect.draft202012, (Pointer.root.child "properties").child "~1/", branches⟩ :=
    .member (Context.of_draft202012 _ rfl) List.mem_cons_self (by decide +kernel)
      (List.mem_cons_of_mem _ List.mem_cons_self)
  have branch : Subschema Keyword.find? resolver
      ⟨Dialect.draft202012, (Pointer.root.child "properties").child "~1/", branches⟩
      ⟨Dialect.draft202012, place, inner⟩ :=
    .element (Context.of_draft202012 _ rfl) List.mem_cons_self (by decide +kernel) rfl
  have reached := (ReflTransGen.single property).tail branch
  obtain ⟨selects, examines⟩ := Pointer.text_faithful.2.2 document settings distinct
  have selected := selects _ _ _ _ reached
  exact ⟨distinct, reached, by decide +kernel, selected, by decide +kernel,
    examines .plan Dialect.official (some Dialect.draft202012) 9⟩

end SchemaPack
