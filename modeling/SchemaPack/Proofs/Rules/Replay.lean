import SchemaPack.Proofs.Rules.Places
import SchemaPack.Proofs.Rules.Standing

namespace SchemaPack

def Rule.KeepsDistinct (rule : Rule) : Prop :=
  ∀ node context, rule.condition node context = true → node.Distinct →
    (rule.transform node).Distinct

/-- What an event leaves of a document: where a rule is applied, what the text of its pointer leads
    to gives way to what the rule makes of it. It has to lead to a value that the rule matches. -/
def Event.replay? (document : Json) : Event → Option Json
  | .examined context _ (some rule) =>
    (Pointer.ofText? context.pointer.text).bind fun place =>
      ((place.select? document).filter (rule.condition · context)).bind fun node =>
        place.replace? (rule.transform node) document
  | _ => some document

def replay? (events : List Event) (document : Json) : Option Json :=
  events.foldlM Event.replay? document

theorem Event.replay?_applied {document node : Json} {context : Context} {rule : Rule}
    (examined : Json) (held : context.pointer.select? document = some node)
    (applies : rule.condition node context = true) :
    Event.replay? document (.examined context examined (some rule)) =
      context.pointer.replace? (rule.transform node) document := by
  rw [replay?, Pointer.ofText?_text, Option.bind_some, held, Option.filter_some, if_pos applies,
    Option.bind_some]

/-- The events of a computation replayed on a document, each on one that it is met with. -/
inductive Replay (meets : Json → Event → Prop) : Json → List Event → Json → Prop
  | nil (document : Json) : Replay meets document [] document
  | cons {document next final : Json} {event : Event} {events : List Event}
      (met : meets document event) (replayed : event.replay? document = some next)
      (later : Replay meets next events final) : Replay meets document (event :: events) final

namespace Replay

variable {meets : Json → Event → Prop} {document middle final : Json} {events later : List Event}

theorem append (first : Replay meets document events middle)
    (second : Replay meets middle later final) : Replay meets document (events ++ later) final := by
  induction first with
  | nil => exact second
  | cons met replayed _ ih => exact .cons met replayed (ih second)

theorem mono {more : Json → Event → Prop} (replay : Replay meets document events final)
    (weaker : ∀ current event, meets current event → more current event) :
    Replay more document events final := by
  induction replay with
  | nil => exact .nil _
  | cons met replayed _ ih => exact .cons (weaker _ _ met) replayed ih

theorem still (replay : Replay meets document events final)
    (kept : ∀ event, meets document event → event.replay? document = some document) :
    final = document ∧ ∀ event ∈ events, meets document event := by
  induction replay with
  | nil => exact ⟨rfl, List.forall_mem_nil _⟩
  | cons met replayed _ ih =>
    cases (kept _ met).symm.trans replayed
    obtain ⟨same, each⟩ := ih kept
    exact ⟨same, List.forall_mem_cons.mpr ⟨met, each⟩⟩

theorem replay?_eq (replay : Replay meets document events final) :
    replay? events document = some final := by
  induction replay with
  | nil => rfl
  | cons _ replayed _ ih => rw [replay?, List.foldlM_cons, replayed]; exact ih

theorem met {before after : List Event} {event : Event}
    (replay : Replay meets document (before ++ event :: after) final) :
    ∃ current, replay? before document = some current ∧ meets current event := by
  induction before generalizing document with
  | nil =>
    cases replay with
    | cons met _ _ => exact ⟨document, rfl, met⟩
  | cons first before ih =>
    cases replay with
    | cons _ replayed later =>
      obtain ⟨current, earlier, met⟩ := ih later
      refine ⟨current, ?_, met⟩
      rw [replay?, List.foldlM_cons, replayed]
      exact earlier

end Replay

namespace Traced

variable {α β : Type} {meets : Json → Event → Prop} {document : Json}

def Replays (x : Traced α) (meets : Json → Event → Prop) (document : Json)
    (leaves : α → Json → Prop) : Prop :=
  ∃ final, Replay meets document x.events final ∧ ∀ a, x.result = .ok a → leaves a final

namespace Replays

variable {x : Traced α} {f : α → Traced β} {leaves : α → Json → Prop} {ends : β → Json → Prop}

theorem pure {a : α} (left : leaves a document) :
    (Pure.pure a : Traced α).Replays meets document leaves :=
  ⟨document, .nil document, by rintro _ ⟨⟩; exact left⟩

theorem stop (stop : Stop) : (Traced.stop stop : Traced α).Replays meets document leaves :=
  ⟨document, .nil document, nofun⟩

theorem mono {more : Json → Event → Prop} {weaker : α → Json → Prop}
    (replays : x.Replays meets document leaves)
    (met : ∀ current event, meets current event → more current event)
    (left : ∀ a final, x.result = .ok a → leaves a final → weaker a final) :
    x.Replays more document weaker := by
  obtain ⟨final, replay, ended⟩ := replays
  exact ⟨final, replay.mono met, fun a given => left a final given (ended a given)⟩

theorem bind (first : x.Replays meets document leaves)
    (later : ∀ a next, leaves a next → (f a).Replays meets next ends) :
    (x >>= f).Replays meets document ends := by
  obtain ⟨next, replay, left⟩ := first
  cases given : x.result with
  | error stop =>
    rw [bind_error given]
    exact ⟨next, replay, nofun⟩
  | ok a =>
    obtain ⟨final, again, ended⟩ := later a next (left a given)
    rw [bind_ok given]
    exact ⟨final, replay.append again, ended⟩

theorem ofExcept_bind {result : Except Failure α}
    (later : ∀ a, result = .ok a → (f a).Replays meets document ends) :
    (ofExcept result >>= f).Replays meets document ends := by
  cases result with
  | error failure => exact .stop (.failed failure)
  | ok a => exact later a rfl

theorem emit_bind {event : Event} {next : Json} {y : Traced β} (met : meets document event)
    (replayed : event.replay? document = some next) (later : y.Replays meets next ends) :
    (emit event >>= fun _ => y).Replays meets document ends := by
  obtain ⟨final, replay, ended⟩ := later
  exact ⟨final, .cons met replayed replay, ended⟩

end Replays

end Traced

namespace Fresh

variable (rules : List Rule) (walker : Walker) (resolver : Resolver) (dialect : String)

/-- A node that is looked at stands in the document as it has become by then, in its context, and
    it is the first rule that matches which is applied to it. -/
def Meets (document : Json) : Event → Prop
  | .examined context node applied => ∃ inherited,
    Stands walker resolver dialect document ⟨inherited, context.pointer, node⟩ ∧
      Context.of resolver inherited context.pointer node = .ok context ∧
        applied = rules.find? (·.condition node context)
  | _ => True

variable {rules walker resolver dialect} {inherited : String}

theorem settle_replays
    (keeps : ∀ rule ∈ rules, rule.KeepsDistinct)
    (pointer : Pointer) (steps : Nat) {document node : Json}
    (stands : Stands walker resolver dialect document ⟨inherited, pointer, node⟩) :
    (settle rules resolver inherited pointer steps node).Replays
      (Meets rules walker resolver dialect) document fun settled final =>
        Puts document pointer settled.2 final ∧
          Context.of resolver inherited pointer settled.2 = .ok settled.1 := by
  induction steps generalizing document node with
  | zero => exact .stop _
  | succ steps ih =>
    apply Traced.Replays.ofExcept_bind
    intro context here
    obtain ⟨_, _, _, rfl⟩ := Context.of_eq_ok_iff.mp here
    have met : Meets rules walker resolver dialect document
        (.examined context node (rules.find? (·.condition node context))) :=
      ⟨inherited, stands, here, rfl⟩
    rcases Rule.first_cases node context rules with crash | found
    · rw [crash, Traced.stop_bind]
      exact .stop _
    rw [found, pure_bind]
    cases matched : rules.find? (·.condition node context) with
    | none =>
      rw [matched] at met
      exact .emit_bind met rfl (.pure ⟨.refl stands.distinct stands.held, here⟩)
    | some rule =>
      rw [matched] at met
      have applies := List.find?_some matched
      have listed := List.mem_of_find?_eq_some matched
      have distinct := keeps rule listed node context applies stands.distinct_node
      obtain ⟨next, puts⟩ := stands.exists_puts distinct
      have replayed := (Event.replay?_applied node stands.held applies).trans puts.replaced
      apply Traced.Replays.emit_bind met replayed
      obtain ⟨final, replay, left⟩ := ih (stands.of_puts puts)
      exact ⟨final, replay, fun settled given =>
        (left settled given).imp_left (puts.trans stands.distinct)⟩

section Children

variable {context : Context} {visit : Pointer → Json → Traced Json}
  (inside : ∀ pointer node document,
    Stands walker resolver dialect document ⟨context.dialect, pointer, node⟩ →
      (visit pointer node).Replays (Meets rules walker resolver dialect) document
        fun result final => Puts document pointer result final)

include inside

theorem visitItems_replays {before after : Members} {name : String}
    (named : (walker context.vocabularies name).map Keyword.role = some .subschemaList)
    (done items : List Json) {document : Json}
    (opens : Opens walker resolver dialect inherited context document
      (before ++ (name, .array (done ++ items)) :: after)) :
    (visitItems visit (context.pointer.child name) done.length items).Replays
      (Meets rules walker resolver dialect) document fun results final =>
        Puts document (context.pointer.child name) (.array (done ++ results)) final := by
  induction items generalizing done document with
  | nil => exact .pure (.refl opens.stands.distinct opens.held)
  | cons item rest ih =>
    have there : (done ++ item :: rest)[done.length]? = some item := by simp
    have leads := (Pointer.step?_item (done ++ item :: rest) done.length).trans there
    refine .bind (inside _ item document (opens.element_stands named there)) ?_
    intro result next puts
    have outward := puts.outward opens.held leads
    rw [Pointer.put_item, List.set_append_right _ _ (Nat.le_refl _), Nat.sub_self,
      List.set_cons_zero, List.append_cons] at outward
    have reopens := opens.of_puts outward named rfl
    have length : (done ++ [result]).length = done.length + 1 := by simp
    have later := ih (done ++ [result]) reopens
    rw [length] at later
    refine later.bind fun results final last => .pure ?_
    rw [List.append_cons]
    exact outward.trans opens.stands.distinct last

theorem visitEntries_replays {before after : Members} {name : String}
    (named : (walker context.vocabularies name).map Keyword.role = some .subschemaMap)
    (done entries : Members) {document : Json}
    (opens : Opens walker resolver dialect inherited context document
      (before ++ (name, .object (done ++ entries)) :: after)) :
    (visitEntries visit (context.pointer.child name) entries).Replays
      (Meets rules walker resolver dialect) document fun results final =>
        Puts document (context.pointer.child name) (.object (done ++ results)) final := by
  induction entries generalizing done document with
  | nil => exact .pure (.refl opens.stands.distinct opens.held)
  | cons entry rest ih =>
    obtain ⟨key, item⟩ := entry
    have names := (Pointer.distinct_of_select? opens.stands.distinct opens.held).1
    have leads : Pointer.step? (.object (done ++ (key, item) :: rest)) key = some item :=
      Members.get?_between names
    refine .bind (inside _ item document (opens.member_stands named Opens.entry_mem)) ?_
    intro result next puts
    have outward := puts.outward opens.held leads
    rw [Pointer.put, Members.insert_between result names, List.append_cons] at outward
    have reopens := opens.of_puts outward named rfl
    refine (ih (done ++ [(key, result)]) reopens).bind fun results final last => .pure ?_
    rw [List.append_cons]
    exact outward.trans opens.stands.distinct last

theorem visitKeyword_replays {before after : Members} {name : String} {value document : Json}
    (opens : Opens walker resolver dialect inherited context document
      (before ++ (name, value) :: after)) :
    (visitKeyword walker visit context.vocabularies context.pointer name value).Replays
      (Meets rules walker resolver dialect) document fun result final =>
        Puts document (context.pointer.child name) result final ∧
          Opens walker resolver dialect inherited context final
            (before ++ (name, result) :: after) := by
  unfold visitKeyword
  split
  · rename_i named
    obtain ⟨final, replay, left⟩ := inside _ _ document (opens.value_stands named)
    refine ⟨final, replay, fun result given => ?_⟩
    exact ⟨left result given, opens.of_puts (left result given) named rfl⟩
  · rename_i named
    refine (visitItems_replays inside named [] _ opens).bind fun results final puts => .pure ?_
    exact ⟨puts, opens.of_puts puts named rfl⟩
  · rename_i named
    refine (visitEntries_replays inside named [] _ opens).bind fun results final puts => .pure ?_
    exact ⟨puts, opens.of_puts puts named rfl⟩
  · exact .pure ⟨.refl opens.stands.distinct opens.held, opens⟩

theorem visitKeywords_replays (done entries : Members) {document : Json}
    (opens : Opens walker resolver dialect inherited context document (done ++ entries)) :
    (visitKeywords walker visit context.vocabularies context.pointer entries).Replays
      (Meets rules walker resolver dialect) document fun results final =>
        Puts document context.pointer (.object (done ++ results)) final := by
  induction entries generalizing done document with
  | nil => exact .pure (.refl opens.stands.distinct opens.stands.held)
  | cons entry rest ih =>
    obtain ⟨name, value⟩ := entry
    refine (visitKeyword_replays inside opens).bind ?_
    rintro result next ⟨puts, reopens⟩
    have outward := opens.outward puts
    rw [List.append_cons] at outward reopens
    refine (ih (done ++ [(name, result)]) reopens).bind fun results final last => .pure ?_
    rw [List.append_cons]
    exact outward.trans opens.stands.distinct last

end Children

theorem visit_replays
    (keeps : ∀ rule ∈ rules, rule.KeepsDistinct)
    (steps : Nat) {pointer : Pointer} {document node : Json}
    (stands : Stands walker resolver dialect document ⟨inherited, pointer, node⟩) :
    (visit rules walker resolver steps inherited pointer node).Replays
      (Meets rules walker resolver dialect) document fun result final =>
        Puts document pointer result final := by
  induction steps generalizing inherited pointer document node with
  | zero => exact .stop _
  | succ steps ih =>
    refine (settle_replays keeps pointer steps stands).bind ?_
    rintro ⟨context, settled⟩ next ⟨puts, here⟩
    obtain ⟨_, _, _, rfl⟩ := Context.of_eq_ok_iff.mp here
    cases settled with
    | object members =>
      have opens : Opens walker resolver dialect inherited context next ([] ++ members) :=
        ⟨stands.of_puts puts, fun _ => here⟩
      have inside := fun pointer node document stands => @ih context.dialect pointer document node
        stands
      refine (visitKeywords_replays inside [] members opens).bind fun results final last =>
        .pure ?_
      exact puts.trans stands.distinct last
    | null | bool | number | string | array => exact .pure puts

theorem runPasses_replays (keeps : ∀ rule ∈ rules, rule.KeepsDistinct)
    (steps number applied : Nat) {document : Json} (distinct : document.Distinct) :
    (runPasses rules walker resolver dialect steps number applied document).Replays
      (Meets rules walker resolver dialect) document fun result final =>
        final = result ∧ result.Distinct := by
  induction steps generalizing number applied document with
  | zero => exact .stop _
  | succ steps ih =>
    refine (visit_replays keeps steps (.root distinct)).bind fun passed next puts => ?_
    obtain rfl : passed = next := Option.some.inj puts.replaced
    refine .emit_bind trivial rfl ?_
    split
    · exact ih _ _ puts.distinct
    · exact .emit_bind trivial rfl (.pure ⟨rfl, puts.distinct⟩)

end Fresh

/-- The events of a run, one that fails included, can be replayed on its document and leave what it
    gives. -/
theorem exists_replay {rules : List Rule} {walker : Walker} {resolver : Resolver}
    {default : Option String} {document : Json} {dialect : String}
    (keeps : ∀ rule ∈ rules, rule.KeepsDistinct) (distinct : document.Distinct)
    (root : Dialect.ofDocument document default = .ok dialect) (limit : Nat) :
    (saturate rules resolver default document limit walker).Replays
      (Fresh.Meets rules walker resolver dialect) document fun result final =>
        final = result ∧ result.Distinct := by
  rw [saturate_eq, root, Traced.ofExcept_ok_bind]
  exact Fresh.runPasses_replays keeps limit 1 0 distinct

/-- A run is what its events say: applying their rules one by one where their pointers lead, read
    off their texts, gives its result. Each node that is looked at is where its pointer leads by
    then, in the whole document for the root pointer alone, and it is the first rule that matches
    which is applied to it. -/
theorem saturate_replays (rules : List Rule) (walker : Walker) (resolver : Resolver)
    (default : Option String) (document result : Json) (limit : Nat)
    (keeps : ∀ rule ∈ rules, rule.KeepsDistinct)
    (distinct : document.Distinct)
    (h : (saturate rules resolver default document limit walker).result = .ok result) :
    replay? (saturate rules resolver default document limit walker).events document =
        some result ∧
      ∀ before context node applied after,
        (saturate rules resolver default document limit walker).events =
            before ++ .examined context node applied :: after →
          ∃ current, replay? before document = some current ∧
            (Pointer.ofText? context.pointer.text).bind (·.select? current) = some node ∧
              applied = rules.find? (·.condition node context) ∧
                (context.pointer.isRoot = true ↔ node = current) := by
  have given := h
  rw [saturate_eq] at given
  obtain ⟨dialect, root, _⟩ := Traced.ofExcept_bind_ok given
  obtain ⟨final, replay, left⟩ := exists_replay keeps distinct root limit
  refine ⟨(left result h).1 ▸ replay.replay?_eq, ?_⟩
  intro before context node applied after split
  obtain ⟨current, earlier, _, stands, _, first⟩ := Replay.met (split ▸ replay)
  refine ⟨current, earlier, ?_, first, Pointer.isRoot_iff_of_select? stands.held⟩
  rw [Pointer.ofText?_text, Option.bind_some]
  exact stands.held

/-- Names are escaped in the text of a pointer, and what was at one index is at another after an
    item before it is gone. -/
theorem saturate_replays_shifted :
    let shut : Rule := {
      name := "shut"
      condition := fun node _ => node == .bool true
      transform := fun _ => .bool false }
    let shed : Rule := {
      name := "shed"
      condition := fun node _ =>
        node == .object [("anyOf", .array [.bool false, .bool false, .string "last"])]
      transform := fun _ => .object [("anyOf", .array [.bool false, .string "last"])] }
    let turn : Rule := {
      name := "turn"
      condition := fun node context =>
        node == .string "last" && context.pointer.tokens.getLast? == some "1"
      transform := fun _ => .null }
    let document := Json.object [("properties", .object [
      ("a/b", .object [("anyOf", .array [.bool true, .bool true, .string "last"])]),
      ("m~n", .bool true)])]
    let result := Json.object [("properties", .object [
      ("a/b", .object [("anyOf", .array [.bool false, .null])]), ("m~n", .bool false)])]
    let run := saturate [shut, shed, turn] Dialect.official (some Dialect.draft202012) document 9
    run.result = .ok result ∧
      run.rewritten.map Pointer.text = ["/properties/a~1b/anyOf/0", "/properties/a~1b/anyOf/1",
        "/properties/m~0n", "/properties/a~1b", "/properties/a~1b/anyOf/1"] ∧
      replay? run.events document = some result ∧
      ∀ before context node applied after,
        run.events = before ++ .examined context node applied :: after →
          ∃ current, replay? before document = some current ∧
            (Pointer.ofText? context.pointer.text).bind (·.select? current) = some node ∧
              applied = [shut, shed, turn].find? (·.condition node context) ∧
                (context.pointer.isRoot = true ↔ node = current) := by
  intro shut shed turn document result run
  have keeps : ∀ rule ∈ [shut, shed, turn], rule.KeepsDistinct := by
    rw [List.forall_mem_cons, List.forall_mem_cons, List.forall_mem_singleton]
    refine ⟨?_, ?_, ?_⟩
    · exact fun _ _ _ _ => (by decide : Json.Distinct (.bool false))
    · exact fun _ _ _ _ =>
        (by decide : Json.Distinct (.object [("anyOf", .array [.bool false, .string "last"])]))
    · exact fun _ _ _ _ => (by decide : Json.Distinct .null)
  have ended : run.result = .ok result := by decide +kernel
  exact ⟨ended, by decide +kernel,
    saturate_replays _ Keyword.find? _ _ _ _ 9 keeps (by decide) ended⟩

end SchemaPack
