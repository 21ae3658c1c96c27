import SchemaPack.Proofs.CommandLine.Documents
import SchemaPack.Proofs.Files.Directories

namespace SchemaPack

/-- The only failure of a run, if any, is that documents failed: all results were delivered. -/
def Progress.Delivers (progress : Progress) : Prop :=
  ∀ cause, progress.error = some cause → ∃ failed total, cause = .failedInputs failed total

namespace Output

variable {tree : Tree} {out : Path} {outputs : List Output} {output : Output}

def HasName (name : String) (output : Output) : Bool := output.1.fileName == name

theorem toFiles_cons {rest : List Output}
    (fine : (toFiles tree out (output :: rest)).error = none) :
    ∃ after, tree.write (out.join output.1.fileName) output.2.pretty = .ok after ∧
      toFiles tree out (output :: rest) = toFiles after out rest := by
  obtain ⟨document, result⟩ := output
  rw [toFiles] at fine ⊢
  cases written : tree.write (out.join document.fileName) result.pretty with
  | ok after => exact ⟨after, rfl, rfl⟩
  | error cause => rw [written] at fine; cases fine

theorem toFiles_directories : (toFiles tree out outputs).tree.directories = tree.directories := by
  induction outputs generalizing tree with
  | nil => rfl
  | cons output rest ih =>
    rw [toFiles]
    cases written : tree.write (out.join output.1.fileName) output.2.pretty with
    | ok after => exact ih.trans (Tree.write_directories written)
    | error cause => rfl

theorem toFiles_keeps {name text : String} (plain : Path.IsPlain name)
    (fine : (toFiles tree out outputs).error = none)
    (unnamed : outputs.filter (HasName name) = []) (known : tree.read (out.join name) = .ok text) :
    (toFiles tree out outputs).tree.read (out.join name) = .ok text := by
  induction outputs generalizing tree with
  | nil => exact known
  | cons output rest ih =>
    obtain ⟨after, written, onward⟩ := toFiles_cons fine
    rw [List.filter_cons] at unnamed
    split at unnamed
    · cases unnamed
    · rename_i different
      have apart : name ≠ output.1.fileName := by
        rintro rfl
        exact different (beq_self_eq_true _)
      have kept :=
        Tree.read_join_of_write_ne (Document.isPlain_fileName _) plain apart written known
      rw [onward] at fine ⊢
      exact ih fine unnamed kept

/-- Of several outputs with one name it is the last that stays. -/
theorem toFiles_read {name : String} {last : Output}
    (fine : (toFiles tree out outputs).error = none)
    (latest : (outputs.filter (HasName name)).getLast? = some last) :
    (toFiles tree out outputs).tree.read (out.join name) = .ok last.2.pretty := by
  induction outputs generalizing tree with
  | nil => cases latest
  | cons output rest ih =>
    obtain ⟨after, written, onward⟩ := toFiles_cons fine
    rw [onward] at fine ⊢
    rw [List.filter_cons] at latest
    split at latest
    · rename_i named
      cases later : (rest.filter (HasName name)).getLast? with
      | some other =>
        rw [List.getLast?_cons, later] at latest
        exact ih fine (later.trans latest)
      | none =>
        rw [List.getLast?_cons, later] at latest
        cases latest
        have same : output.1.fileName = name := beq_iff_eq.mp named
        rw [same] at written
        exact toFiles_keeps (same ▸ Document.isPlain_fileName _) fine
          (List.getLast?_eq_none_iff.mp later) (Tree.read_of_write written)
    · exact ih fine latest

theorem exists_last (member : output ∈ outputs) :
    ∃ last, (outputs.filter (HasName output.1.fileName)).getLast? = some last := by
  have named : output ∈ outputs.filter (HasName output.1.fileName) :=
    List.mem_filter.mpr ⟨member, beq_self_eq_true _⟩
  exact ⟨_, List.getLast?_eq_some_getLast (List.ne_nil_of_mem named)⟩

theorem toFiles_error {failed total : Nat} :
    (toFiles tree out outputs).error ≠ some (.failedInputs failed total) := by
  induction outputs generalizing tree with
  | nil => exact fun fault => nomatch fault
  | cons output rest ih =>
    rw [toFiles]
    cases tree.write (out.join output.1.fileName) output.2.pretty with
    | ok after => exact ih
    | error cause => exact fun fault => nomatch fault

theorem toDirectory_error {failed total : Nat} :
    (toDirectory tree out outputs).error ≠ some (.failedInputs failed total) := by
  unfold toDirectory
  dsimp only
  split
  · exact toFiles_error
  · exact fun fault => nomatch fault

theorem toFile_error {result : Json} {failed total : Nat} :
    (toFile tree out result).error ≠ some (.failedInputs failed total) := by
  unfold toFile
  dsimp only
  split
  · exact fun fault => nomatch fault
  · split
    · exact fun fault => nomatch fault
    · exact fun fault => nomatch fault

theorem deliver_error {out : Option Path} {failed total : Nat} :
    (deliver tree out outputs).error ≠ some (.failedInputs failed total) := by
  unfold deliver
  split
  · exact fun fault => nomatch fault
  · split
    · exact toDirectory_error
    · exact toFile_error
  · exact toDirectory_error

theorem deliver_toDirectory (directory : tree.isDirectory out = true ∨ outputs.length ≠ 1) :
    deliver tree (some out) outputs = toDirectory tree out outputs := by
  unfold deliver
  split
  · rename_i target
    cases target
  · rename_i target
    cases target
    rw [if_pos (directory.resolve_right fun several => several rfl)]
  · rename_i target _
    cases target
    rfl

theorem toDirectory_read {name : String} {last : Output}
    (fine : (toDirectory tree out outputs).error = none)
    (latest : (outputs.filter (HasName name)).getLast? = some last) :
    (toDirectory tree out outputs).tree.read (out.join name) = .ok last.2.pretty := by
  unfold toDirectory at fine ⊢
  dsimp only at fine ⊢
  split
  · rename_i made
    rw [made] at fine
    exact toFiles_read fine latest
  · rename_i cause failed
    rw [failed] at fine
    cases fine

end Output

namespace Settings

/-- What a run reads before it transforms anything. -/
structure Loads (settings : Settings) (tree : Tree) (documents : List Document)
    (registry : Registry) : Prop where
  documents : settings.loadDocuments tree = .ok documents
  registry : settings.loadRegistry tree = .ok registry

variable (settings : Settings) (stage : Stage) (registry : Registry)

def resultOf (document : Document) : Except Stop Json :=
  (stage.run registry.resolver (some settings.defaultDialect) document.value).result

def outputsOf (documents : List Document) : List Output :=
  Command.outputs (documents.map fun document =>
    (document, settings.resultOf stage registry document))

variable {settings stage registry}

theorem mem_outputsOf {documents : List Document} {output : Output} :
    output ∈ settings.outputsOf stage registry documents ↔
      output.1 ∈ documents ∧ settings.resultOf stage registry output.1 = .ok output.2 := by
  unfold outputsOf Command.outputs
  rw [List.filterMap_map, List.mem_filterMap]
  constructor
  · rintro ⟨document, listed, kept⟩
    dsimp only [Function.comp] at kept
    cases ran : settings.resultOf stage registry document with
    | ok result =>
      rw [ran] at kept
      cases kept
      exact ⟨listed, ran⟩
    | error failure =>
      rw [ran] at kept
      cases kept
  · rintro ⟨listed, ran⟩
    refine ⟨output.1, listed, ?_⟩
    dsimp only [Function.comp]
    rw [ran]
    rfl

end Settings

namespace Command

variable {tree : Tree} {stage : Stage} {settings : Settings} {documents : List Document}
  {registry : Registry} {out : Path}

theorem transformAll_eq (loads : settings.Loads tree documents registry) :
    transformAll tree stage settings = finish tree settings.out (documents.map fun document =>
      (document, settings.resultOf stage registry document)) := by
  rw [transformAll, loads.documents, loads.registry]
  rfl

section Finish

variable {target : Option Path} {results : List (Document × Except Stop Json)}

theorem finish_tree (returned : results.findSome? (interruption? ·.2) = none) :
    (finish tree target results).tree = (Output.deliver tree target (outputs results)).tree := by
  rw [finish, returned]

theorem finish_error {cause : CommandError}
    (returned : results.findSome? (interruption? ·.2) = none)
    (fault : (Output.deliver tree target (outputs results)).error = some cause) :
    (finish tree target results).error = some cause := by
  rw [finish, returned]
  dsimp only
  rw [fault, Option.some_or]

theorem returned_of_delivers (delivers : (finish tree target results).Delivers) :
    results.findSome? (interruption? ·.2) = none := by
  cases interrupted : results.findSome? (interruption? ·.2) with
  | none => rfl
  | some cause =>
    obtain ⟨failed, total, rfl⟩ := delivers cause (by rw [finish, interrupted])
    obtain ⟨⟨_, result⟩, _, same⟩ := List.exists_of_findSome?_eq_some interrupted
    unfold interruption? at same
    split at same <;> cases same

theorem finish_fine (delivers : (finish tree target results).Delivers) :
    (Output.deliver tree target (outputs results)).error = none := by
  cases fault : (Output.deliver tree target (outputs results)).error with
  | none => rfl
  | some cause =>
    obtain ⟨failed, total, rfl⟩ :=
      delivers cause (finish_error (returned_of_delivers delivers) fault)
    exact absurd fault Output.deliver_error

end Finish

theorem transformAll_read (loads : settings.Loads tree documents registry)
    (target : settings.out = some out)
    (directory : tree.isDirectory out = true ∨
      (settings.outputsOf stage registry documents).length ≠ 1)
    (delivers : (transformAll tree stage settings).Delivers) {name : String} {last : Output}
    (latest : ((settings.outputsOf stage registry documents).filter
      (Output.HasName name)).getLast? = some last) :
    (transformAll tree stage settings).tree.read (out.join name) = .ok last.2.pretty := by
  rw [transformAll_eq loads, target] at delivers ⊢
  have fine : (Output.deliver tree (some out)
    (settings.outputsOf stage registry documents)).error = none := finish_fine delivers
  rw [Output.deliver_toDirectory directory] at fine
  have read := Output.toDirectory_read fine latest
  rw [← Output.deliver_toDirectory directory] at read
  rw [finish_tree (returned_of_delivers delivers)]
  exact read

/-- What a run leaves in a directory. Of the results with one file name the last one is found
    there, and every result is found if and only if documents of different sources whose names
    collide have the same result. No others share a file name. -/
theorem transformAll_delivers (loads : settings.Loads tree documents registry)
    (target : settings.out = some out)
    (directory : tree.isDirectory out = true ∨
      (settings.outputsOf stage registry documents).length ≠ 1)
    (delivers : (transformAll tree stage settings).Delivers) :
    (∀ name last, ((settings.outputsOf stage registry documents).filter
        (Output.HasName name)).getLast? = some last →
      (transformAll tree stage settings).tree.read (out.join name) = .ok last.2.pretty) ∧
    ((∀ output ∈ settings.outputsOf stage registry documents,
        (transformAll tree stage settings).tree.read (out.join output.1.fileName) =
          .ok output.2.pretty) ↔
      ∀ a ∈ settings.outputsOf stage registry documents,
        ∀ b ∈ settings.outputsOf stage registry documents,
          a.1.source ≠ b.1.source → a.1.Collides b.1 → a.2.pretty = b.2.pretty) ∧
    ∀ a ∈ documents, ∀ b ∈ documents,
      a.fileName = b.fileName ↔ a = b ∨ a.source ≠ b.source ∧ a.Collides b := by
  have names {a b : Document} := Settings.fileName_eq_iff_loaded (a := a) (b := b) loads.documents
  refine ⟨fun name last => transformAll_read loads target directory delivers,
    ⟨fun own a first b second _ collides => ?_, fun agree output member => ?_⟩,
    fun a first b second => names first second⟩
  · -- both are read from the one file
    have read := own a first
    rw [Document.fileName_eq_iff.mpr collides, own b second] at read
    exact (Except.ok.inj read).symm
  · obtain ⟨last, latest⟩ := Output.exists_last member
    obtain ⟨among, named⟩ := List.mem_filter.mp (List.mem_of_getLast? latest)
    rw [transformAll_read loads target directory delivers latest]
    obtain ⟨listed, ran⟩ := Settings.mem_outputsOf.mp member
    obtain ⟨listedLast, ranLast⟩ := Settings.mem_outputsOf.mp among
    rcases (names listedLast listed).mp (beq_iff_eq.mp named) with same | ⟨sources, collides⟩
    · rw [← same, ranLast] at ran
      rw [Except.ok.inj ran]
    · rw [agree last among output member sources collides]

section Constants

/-- Two sources hold one value each; their results are to go to one directory. -/
def constantFiles (first second : String) : Tree :=
  .ofFiles [(first, "\x7b\x22enum\x22:[1]\x7d"), (second, "\x7b\x22enum\x22:[2]\x7d")]

def constantSettings (first second : String) : Settings :=
  { inputs := [first, second], out := some ⟨"out"⟩ }

def constantSchema (n : Int64) : Json := .object [("enum", .array [Encoding.signed n])]

def constantOutput (source : String) (n : Int64) : Output :=
  (⟨⟨source⟩, none, constantSchema n⟩, (Encoding.constNone (Encoding.signed n)).document)

def constantOutputs (first second : String) : List Output :=
  [constantOutput first 1, constantOutput second 2]

variable {first second : String}

theorem constantOutput_pretty :
    (constantOutput first 1).2.pretty ≠ (constantOutput second 2).2.pretty := by
  have texts : Json.indented "    " (Encoding.signed 1) ≠
      Json.indented "    " (Encoding.signed 2) := by decide
  simp [constantOutput, Encoding.document, Encoding.wrap, Encoding.options, Encoding.kind,
    Json.pretty, Json.indented, Json.indentedMembers, Json.block, texts, String.append_assoc]

theorem plan_constants :
    (Stage.plan.run (Registry.resolver {}) (some Dialect.draft202012) (constantSchema 1)).result =
      .ok (Encoding.constNone (Encoding.signed 1)).document ∧
    (Stage.plan.run (Registry.resolver {}) (some Dialect.draft202012) (constantSchema 2)).result =
      .ok (Encoding.constNone (Encoding.signed 2)).document := by
  decide +kernel

theorem results_constants :
    (((constantOutputs first second).map (·.1)).map fun document =>
      (document, (constantSettings first second).resultOf .plan {} document)) =
    (constantOutputs first second).map fun output => (output.1, .ok output.2) := by
  simp only [constantOutputs, constantOutput, constantSettings, List.map_cons, List.map_nil,
    Settings.resultOf, plan_constants.1, plan_constants.2]

theorem outputsOf_constants : (constantSettings first second).outputsOf .plan {}
    ((constantOutputs first second).map (·.1)) = constantOutputs first second := by
  rw [Settings.outputsOf, results_constants]
  rfl

theorem transformAll_delivers_constants :
    let after := transformAll (constantFiles "a/x.json" "b/y.json") .plan
      (constantSettings "a/x.json" "b/y.json")
    after.error = none ∧ ∀ output ∈ constantOutputs "a/x.json" "b/y.json",
      after.tree.read (Path.join ⟨"out"⟩ output.1.fileName) = .ok output.2.pretty := by
  have loads : (constantSettings "a/x.json" "b/y.json").Loads
    (constantFiles "a/x.json" "b/y.json") ((constantOutputs "a/x.json" "b/y.json").map (·.1)) {} :=
      ⟨by decide +kernel, rfl⟩
  have fine : (transformAll (constantFiles "a/x.json" "b/y.json") .plan
      (constantSettings "a/x.json" "b/y.json")).error = none := by
    rw [transformAll_eq loads, results_constants]
    decide +kernel
  have delivered := transformAll_delivers loads rfl (.inr (by rw [outputsOf_constants]; decide))
    (fun cause fault => nomatch fine.symm.trans fault)
  rw [outputsOf_constants] at delivered
  refine ⟨fine, delivered.2.1.mpr fun a member b memberToo sources collides => ?_⟩
  have names : ∀ a ∈ constantOutputs "a/x.json" "b/y.json",
      ∀ b ∈ constantOutputs "a/x.json" "b/y.json", a.1.source ≠ b.1.source →
        a.1.fileName ≠ b.1.fileName := by decide +kernel
  exact absurd (Document.fileName_eq_iff.mpr collides) (names a member b memberToo sources)

/-- Sources with one name in different directories: both are reported to have succeeded, but only
    the result of the second is left. -/
theorem transformAll_overwrites :
    let after := transformAll (constantFiles "a/x.json" "b/x.json") .plan
      (constantSettings "a/x.json" "b/x.json")
    (constantSettings "a/x.json" "b/x.json").Loads (constantFiles "a/x.json" "b/x.json")
        ((constantOutputs "a/x.json" "b/x.json").map (·.1)) {} ∧
      after.error = none ∧ after.stderr = "ok a/x.json\nok b/x.json\n" ∧
      after.tree.read ⟨"out/x.json"⟩ = .ok (constantOutput "b/x.json" 2).2.pretty ∧
      ¬∀ output ∈ (constantSettings "a/x.json" "b/x.json").outputsOf .plan {}
          ((constantOutputs "a/x.json" "b/x.json").map (·.1)),
        after.tree.read (Path.join ⟨"out"⟩ output.1.fileName) = .ok output.2.pretty := by
  have loads : (constantSettings "a/x.json" "b/x.json").Loads
    (constantFiles "a/x.json" "b/x.json") ((constantOutputs "a/x.json" "b/x.json").map (·.1)) {} :=
      ⟨by decide +kernel, rfl⟩
  have fine : (transformAll (constantFiles "a/x.json" "b/x.json") .plan
      (constantSettings "a/x.json" "b/x.json")).error = none := by
    rw [transformAll_eq loads, results_constants]
    decide +kernel
  have report : (transformAll (constantFiles "a/x.json" "b/x.json") .plan
      (constantSettings "a/x.json" "b/x.json")).stderr = "ok a/x.json\nok b/x.json\n" := by
    rw [transformAll_eq loads, results_constants]
    decide +kernel
  have latest : (((constantSettings "a/x.json" "b/x.json").outputsOf .plan {}
      ((constantOutputs "a/x.json" "b/x.json").map (·.1))).filter
        (Output.HasName "x.json")).getLast? = some (constantOutput "b/x.json" 2) := by
    rw [outputsOf_constants]
    decide +kernel
  have read := transformAll_read loads rfl (.inr (by rw [outputsOf_constants]; decide))
    (fun cause fault => nomatch fine.symm.trans fault) latest
  refine ⟨loads, fine, report, read, ?_⟩
  rw [outputsOf_constants]
  intro own
  have lost := own (constantOutput "a/x.json" 1) List.mem_cons_self
  exact constantOutput_pretty (Except.ok.inj (lost.symm.trans read))

end Constants

end Command

end SchemaPack
