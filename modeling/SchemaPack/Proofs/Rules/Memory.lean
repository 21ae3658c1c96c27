import SchemaPack.Proofs.Rules.Fresh

namespace SchemaPack

namespace Walk

variable {α β : Type} {walker : Walker} {resolver : Resolver}

/-- What a session remembers of a dialect is what the resolver would answer again. -/
def Coherent (resolver : Resolver) (session : Session) : Prop :=
  ∀ dialect frame, session.frames.lookup dialect = some frame →
    Frame.of resolver dialect = .ok frame

/-- A part of a run does what a computation without memory does: the same events, the same result,
    a flag that tells whether a rule was applied, and the count of applications kept up. -/
def Follows (resolver : Resolver) (changed : Bool) (walk : Walk (Bool × α)) (plain : Traced α) :
    Prop :=
  ∀ session, Coherent resolver session → ∃ next, Coherent resolver next ∧
    next.applied = session.applied + plain.applications ∧
    walk session =
      plain >>= fun a => pure ((changed || decide (0 < plain.applications), a), next)

theorem bind_run (walk : Walk α) (f : α → Walk β) (session : Session) :
    (walk >>= f) session = walk session >>= fun out => f out.1 out.2 := rfl

theorem get_bind_run (f : Session → Walk α) (session : Session) :
    (get >>= f) session = f session session := rfl

theorem lift_bind_run (x : Traced α) (f : α → Walk β) (session : Session) :
    ((liftM x : Walk α) >>= f) session = x >>= fun a => f a session := by
  change (x >>= fun a => pure (a, session)) >>= (fun out => f out.1 out.2) = _
  simp only [bind_assoc, pure_bind]

theorem follows_pure (changed : Bool) (a : α) :
    Follows resolver changed (pure (changed, a)) (pure a) := by
  intro session coherent
  refine ⟨session, coherent, rfl, ?_⟩
  rw [pure_bind, Traced.pure_applications]
  simp only [Nat.lt_irrefl, decide_false, Bool.or_false]
  rfl

theorem follows_stop (changed : Bool) (stop : Stop) :
    Follows resolver changed (liftM (Traced.stop stop : Traced (Bool × α)))
      (Traced.stop stop) := by
  intro session coherent
  exact ⟨session, coherent, rfl, rfl⟩

theorem follows_join {changed own : Bool} {walk : Walk (Bool × α)} {plain : Traced α}
    {next : Bool × α → Walk (Bool × β)} {rest : α → Traced β}
    (head : Follows resolver own walk plain)
    (tail : ∀ flag a, Follows resolver (changed || flag) (next (flag, a)) (rest a)) :
    Follows resolver (changed || own) (walk >>= next) (plain >>= rest) := by
  intro session coherent
  obtain ⟨middle, coherent, applied, run⟩ := head session coherent
  rw [bind_run, run, bind_assoc]
  cases h : plain.result with
  | error stop =>
    refine ⟨middle, coherent, ?_, ?_⟩
    · rw [Traced.bind_error h]
      exact applied
    · rw [bind_assoc, Traced.bind_error h, Traced.bind_error h]
  | ok a =>
    obtain ⟨last, coherent, more, run⟩ :=
      tail (own || decide (0 < plain.applications)) a middle coherent
    have total := Traced.bind_applications h rest
    have flags : (decide (0 < plain.applications) || decide (0 < (rest a).applications)) =
        decide (0 < (plain >>= rest).applications) := by
      rw [← Bool.decide_or]
      exact decide_eq_decide.mpr (by omega)
    refine ⟨last, coherent, by omega, ?_⟩
    rw [bind_assoc]
    apply Traced.bind_congr_ok
    intro b hb
    cases h.symm.trans hb
    rw [pure_bind, run, ← Bool.or_assoc, Bool.or_assoc, flags]

theorem follows_bind {changed : Bool} {walk : Walk (Bool × α)} {plain : Traced α}
    {next : Bool × α → Walk (Bool × β)} {rest : α → Traced β}
    (head : Follows resolver changed walk plain)
    (tail : ∀ flag a, Follows resolver flag (next (flag, a)) (rest a)) :
    Follows resolver changed (walk >>= next) (plain >>= rest) :=
  @follows_join _ _ _ false _ _ _ _ _ head tail

theorem follows_inside {changed : Bool} {walk : Walk (Bool × α)} {plain : Traced α}
    {next : Bool × α → Walk (Bool × β)} {rest : α → Traced β}
    (head : Follows resolver false walk plain)
    (tail : ∀ flag a, Follows resolver (changed || flag) (next (flag, a)) (rest a)) :
    Follows resolver changed (walk >>= next) (plain >>= rest) := by
  have joined := follows_join head tail
  rwa [Bool.or_false] at joined

theorem follows_idle {changed : Bool} {event : Event} {walk : Walk (Bool × α)} {plain : Traced α}
    (idle : event.isApplication = false) (tail : Follows resolver changed walk plain) :
    Follows resolver changed (Traced.emit event >>= fun _ => walk)
      (Traced.emit event >>= fun _ => plain) := by
  intro session coherent
  obtain ⟨next, coherent, applied, run⟩ := tail session coherent
  have total : (Traced.emit event >>= fun _ => plain).applications = plain.applications := by
    rw [Traced.bind_applications (Traced.emit_result event)]
    simp [Traced.applications, idle]
  refine ⟨next, coherent, by omega, ?_⟩
  rw [lift_bind_run, total, bind_assoc, run]

theorem follows_application {changed : Bool} {event : Event} {walk : Walk (Bool × α)}
    {plain : Traced α} (application : event.isApplication = true)
    (tail : Follows resolver true walk plain) :
    Follows resolver changed
      (do
        Traced.emit event
        modify fun session => { session with applied := session.applied + 1 }
        walk)
      (Traced.emit event >>= fun _ => plain) := by
  intro session coherent
  obtain ⟨next, coherent, applied, run⟩ :=
    tail { session with applied := session.applied + 1 } coherent
  have total : (Traced.emit event >>= fun _ => plain).applications = plain.applications + 1 := by
    rw [Traced.bind_applications (Traced.emit_result event)]
    simp [Traced.applications, application]
    omega
  refine ⟨next, coherent, by dsimp only at applied; omega, ?_⟩
  have flag : decide (0 < plain.applications + 1) = true := decide_eq_true (by omega)
  rw [lift_bind_run, total, bind_assoc, flag, Bool.or_true]
  simp only [Bool.true_or] at run
  rw [← run]
  rfl

theorem follows_frame {changed : Bool} {dialect : String} {next : Frame → Walk (Bool × α)}
    {rest : Frame → Traced α} (tail : ∀ found, Follows resolver changed (next found) (rest found)) :
    Follows resolver changed (frame resolver dialect >>= next)
      (Traced.ofExcept (Frame.of resolver dialect) >>= rest) := by
  intro session coherent
  rw [bind_run, frame, get_bind_run]
  cases known : session.frames.lookup dialect with
  | some found =>
    rw [coherent dialect found known, Traced.ofExcept_ok, pure_bind]
    exact tail found session coherent
  | none =>
    cases answer : Frame.of resolver dialect with
    | error failure => exact ⟨session, coherent, rfl, rfl⟩
    | ok found =>
      have remembered : Coherent resolver
          { session with frames := (dialect, found) :: session.frames } := by
        intro name other h
        rw [List.lookup_cons] at h
        by_cases same : name = dialect
        · subst same
          simp only [beq_self_eq_true] at h
          rw [answer, Option.some.inj h]
        · simp only [beq_eq_false_iff_ne.mpr same] at h
          exact coherent name other h
      rw [Traced.ofExcept_ok, pure_bind]
      exact tail found _ remembered

theorem settle_follows (rules : List Rule) (inherited : String) (pointer : Pointer) (steps : Nat) :
    ∀ changed node,
      Follows resolver changed (settle rules resolver inherited pointer steps changed node)
        (Fresh.settle rules resolver inherited pointer steps node) := by
  induction steps with
  | zero =>
    intro changed node
    exact follows_stop changed .outOfSteps
  | succ steps ih =>
    intro changed node
    rw [settle, Fresh.settle, Context.of_bind]
    apply follows_frame
    intro found
    dsimp only
    generalize { found with dialect := Dialect.ofNode inherited node, pointer : Context } = context
    rcases Rule.first_cases node context rules with crash | same
    · rw [crash]
      exact follows_stop changed .crashed
    · rw [same, pure_bind, liftM_pure, pure_bind]
      cases rules.find? (·.condition node context) with
      | none => exact follows_idle rfl (follows_pure changed _)
      | some rule => exact follows_application rfl (ih true (rule.transform node))

theorem visitItems_follows {walk : Pointer → Json → Walk (Bool × Json)}
    {plain : Pointer → Json → Traced Json}
    (inside : ∀ pointer node, Follows resolver false (walk pointer node) (plain pointer node))
    (pointer : Pointer) (items : List Json) : ∀ index changed,
      Follows resolver changed (visitItems walk pointer index changed items)
        (Fresh.visitItems plain pointer index items) := by
  induction items with
  | nil =>
    intro index changed
    exact follows_pure changed []
  | cons item rest ih =>
    intro index changed
    rw [visitItems, Fresh.visitItems]
    apply follows_inside (inside (pointer.item index) item)
    intro flag item
    apply follows_bind (ih (index + 1) (changed || flag))
    intro flag rest
    exact follows_pure flag (item :: rest)

theorem visitEntries_follows {walk : Pointer → Json → Walk (Bool × Json)}
    {plain : Pointer → Json → Traced Json}
    (inside : ∀ pointer node, Follows resolver false (walk pointer node) (plain pointer node))
    (pointer : Pointer) (entries : List (String × Json)) : ∀ changed,
      Follows resolver changed (visitEntries walk pointer changed entries)
        (Fresh.visitEntries plain pointer entries) := by
  induction entries with
  | nil =>
    intro changed
    exact follows_pure changed []
  | cons entry rest ih =>
    obtain ⟨name, value⟩ := entry
    intro changed
    rw [visitEntries, Fresh.visitEntries]
    apply follows_inside (inside (pointer.child name) value)
    intro flag value
    apply follows_bind (ih (changed || flag))
    intro flag rest
    exact follows_pure flag ((name, value) :: rest)

theorem visitKeyword_follows {walk : Pointer → Json → Walk (Bool × Json)}
    {plain : Pointer → Json → Traced Json}
    (inside : ∀ pointer node, Follows resolver false (walk pointer node) (plain pointer node))
    (vocabularies : Vocabularies) (pointer : Pointer) (changed : Bool) (name : String)
    (value : Json) :
    Follows resolver changed (visitKeyword walker walk vocabularies pointer changed name value)
      (Fresh.visitKeyword walker plain vocabularies pointer name value) := by
  unfold visitKeyword Fresh.visitKeyword
  generalize (walker vocabularies name).map Keyword.role = role
  rcases role with _ | role
  · exact follows_pure changed value
  · cases role with
    | subschema =>
      change Follows resolver changed _ (plain (pointer.child name) value)
      rw [← bind_pure (plain (pointer.child name) value)]
      apply follows_inside (inside (pointer.child name) value)
      intro flag value
      exact follows_pure (changed || flag) value
    | subschemaList =>
      cases value with
      | array items =>
        apply follows_bind (visitItems_follows inside (pointer.child name) items 0 changed)
        intro flag items
        exact follows_pure flag (Json.array items)
      | null | bool | number | string | object => exact follows_pure changed _
    | subschemaMap =>
      cases value with
      | object members =>
        apply follows_bind (visitEntries_follows inside (pointer.child name) members changed)
        intro flag members
        exact follows_pure flag (Json.object members)
      | null | bool | number | string | array => exact follows_pure changed _
    | identity | reference | comment | assertion | descriptive => exact follows_pure changed value

theorem visitKeywords_follows {walk : Pointer → Json → Walk (Bool × Json)}
    {plain : Pointer → Json → Traced Json}
    (inside : ∀ pointer node, Follows resolver false (walk pointer node) (plain pointer node))
    (vocabularies : Vocabularies) (pointer : Pointer) (entries : List (String × Json)) :
    ∀ changed,
      Follows resolver changed (visitKeywords walker walk vocabularies pointer changed entries)
        (Fresh.visitKeywords walker plain vocabularies pointer entries) := by
  induction entries with
  | nil =>
    intro changed
    exact follows_pure changed []
  | cons entry rest ih =>
    obtain ⟨name, value⟩ := entry
    intro changed
    rw [visitKeywords, Fresh.visitKeywords]
    apply follows_bind (visitKeyword_follows inside vocabularies pointer changed name value)
    intro flag value
    apply follows_bind (ih flag)
    intro flag rest
    exact follows_pure flag ((name, value) :: rest)

theorem visit_follows (rules : List Rule) (steps : Nat) : ∀ inherited pointer node,
    Follows resolver false (visit rules walker resolver steps inherited pointer node)
      (Fresh.visit rules walker resolver steps inherited pointer node) := by
  induction steps with
  | zero =>
    intro inherited pointer node
    exact follows_stop false .outOfSteps
  | succ steps ih =>
    intro inherited pointer node
    rw [visit, Fresh.visit]
    apply follows_bind (settle_follows rules inherited pointer steps false node)
    rintro changed ⟨context, node⟩
    cases node with
    | object members =>
      apply follows_bind (visitKeywords_follows (ih context.dialect) context.vocabularies pointer
        members changed)
      intro flag members
      exact follows_pure flag _
    | null | bool | number | string | array => exact follows_pure changed _

theorem runPasses_run (rules : List Rule) (dialect : String) (steps : Nat) :
    ∀ number document session, Coherent resolver session → ∃ next,
      runPasses rules walker resolver dialect steps number document session =
        Fresh.runPasses rules walker resolver dialect steps number session.applied document >>=
          fun document => pure (document, next) := by
  induction steps with
  | zero =>
    intro number document session coherent
    exact ⟨session, rfl⟩
  | succ steps ih =>
    intro number document session coherent
    obtain ⟨next, coherent, applied, run⟩ := visit_follows rules steps dialect .root document
      session coherent
    rw [runPasses, bind_run, run, Fresh.runPasses]
    -- Whether there is another pass is asked of the flag here and of the events there.
    cases h : (Fresh.visit rules walker resolver steps dialect .root document).result with
    | error stop =>
      refine ⟨next, ?_⟩
      rw [bind_assoc, bind_assoc, Traced.bind_error h, Traced.bind_error h]
    | ok result =>
      by_cases changed :
          0 < (Fresh.visit rules walker resolver steps dialect .root document).applications
      · obtain ⟨last, tail⟩ := ih (number + 1) result next coherent
        refine ⟨last, ?_⟩
        rw [bind_assoc, bind_assoc]
        apply Traced.bind_congr_ok
        intro other same
        cases h.symm.trans same
        rw [pure_bind]
        dsimp only
        rw [lift_bind_run, bind_assoc]
        simp only [changed, decide_true, Bool.or_true, if_true]
        rw [tail, applied]
      · refine ⟨next, ?_⟩
        rw [bind_assoc, bind_assoc]
        apply Traced.bind_congr_ok
        intro other same
        cases h.symm.trans same
        rw [pure_bind]
        dsimp only
        rw [lift_bind_run, bind_assoc]
        have unchanged : session.applied = next.applied := by omega
        simp only [changed, decide_false, Bool.or_false, Bool.false_eq_true, if_false, unchanged]
        rfl

end Walk

/-- A run gives what the run without a memory gives, event by event. -/
theorem saturate_eq (rules : List Rule) (walker : Walker) (resolver : Resolver)
    (default : Option String) (document : Json) (limit : Nat) :
    saturate rules resolver default document limit walker =
      Traced.ofExcept (Dialect.ofDocument document default) >>= fun dialect =>
        Fresh.runPasses rules walker resolver dialect limit 1 0 document := by
  apply Traced.bind_congr_ok
  intro dialect h
  have coherent : Walk.Coherent resolver {} := by
    intro name frame h
    cases h
  obtain ⟨next, run⟩ := Walk.runPasses_run rules dialect limit 1 document {} coherent
  change (Walk.runPasses rules walker resolver dialect limit 1 document {} >>=
    fun out => pure out.1) = _
  rw [run, bind_assoc]
  simp only [pure_bind, bind_pure]

end SchemaPack
