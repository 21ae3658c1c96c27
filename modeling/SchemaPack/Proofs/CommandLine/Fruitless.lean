import SchemaPack.Proofs.CommandLine.Delivery

namespace SchemaPack

namespace Output

variable {tree : Tree} {out : Path} {outputs : List Output}

theorem toDirectory_nil : toDirectory tree out [] =
    { tree := (tree.makeDirectories out.parts).tree
      error := (tree.makeDirectories out.parts).error.map (.noOutputDirectory out) } := by
  unfold toDirectory
  dsimp only
  cases (tree.makeDirectories out.parts).error <;> rfl

theorem toDirectory_subset : tree.directories ⊆ (toDirectory tree out outputs).tree.directories := by
  have kept := (Tree.makeDirectories_makes tree out.parts).grows.subset
  unfold toDirectory
  dsimp only
  split
  · rw [toFiles_directories]
    exact kept
  · exact kept

theorem toFile_subset {result : Json} :
    tree.directories ⊆ (toFile tree out result).tree.directories := by
  have kept := (Tree.makeDirectories_makes tree
    ((Path.parentParts? out.parts).getD [])).grows.subset
  unfold toFile
  dsimp only
  split
  · exact kept
  · split
    · rename_i written
      rw [Tree.write_directories written]
      exact kept
    · exact kept

theorem deliver_subset {out : Option Path} :
    tree.directories ⊆ (deliver tree out outputs).tree.directories := by
  unfold deliver
  split
  · exact List.Subset.refl _
  · split
    · exact toDirectory_subset
    · exact toFile_subset
  · exact toDirectory_subset

theorem toFile_read {result : Json} (fine : (toFile tree out result).error = none) :
    (toFile tree out result).tree.read out = .ok result.pretty := by
  unfold toFile at fine ⊢
  dsimp only at fine ⊢
  split at fine
  · cases fine
  · split at fine
    · rename_i written
      exact Tree.read_of_write written
    · cases fine

end Output

namespace Settings

theorem out_ne_empty {given : Occurrences} {settings : Settings}
    (parsed : ofOccurrences? given = some settings) : settings.out ≠ some ⟨""⟩ := by
  unfold ofOccurrences? at parsed
  split at parsed
  · rename_i accepted
    cases parsed
    intro empty
    obtain ⟨word, given, same⟩ := Option.map_eq_some_iff.mp empty
    cases same
    simp [given] at accepted
  · cases parsed

variable {settings : Settings} {tree : Tree} {stage : Stage} {documents : List Document}
  {registry : Registry}

/-- A run has this one result, and it is delivered. -/
def Yields (settings : Settings) (tree : Tree) (stage : Stage) (output : Output) : Prop :=
  ∃ documents registry, settings.Loads tree documents registry ∧
    settings.outputsOf stage registry documents = [output] ∧
    (Command.transformAll tree stage settings).Delivers

theorem outputsOf_fruitless (fruitless : ∀ document ∈ documents, ∃ failure,
    settings.resultOf stage registry document = .error (.failed failure)) :
    settings.outputsOf stage registry documents = [] := by
  refine List.eq_nil_iff_forall_not_mem.mpr fun output member => ?_
  obtain ⟨listed, ran⟩ := mem_outputsOf.mp member
  obtain ⟨failure, failed⟩ := fruitless _ listed
  cases failed.symm.trans ran

end Settings

namespace Command

variable {tree : Tree} {stage : Stage} {settings : Settings} {documents : List Document}
  {registry : Registry} {out : Path}

/-- No run takes a directory away. -/
theorem transformAll_subset :
    tree.directories ⊆ (transformAll tree stage settings).tree.directories := by
  unfold transformAll
  dsimp only
  split
  · exact List.Subset.refl _
  · unfold finish
    split
    · exact List.Subset.refl _
    · exact Output.deliver_subset

theorem transformAll_directory (directory : tree.isDirectory out = true) :
    (transformAll tree stage settings).tree.read out = .error .isADirectory := by
  have kept : tree.directories ⊆ (transformAll tree stage settings).tree.directories :=
    transformAll_subset
  exact Tree.read_isDirectory ((Tree.isDirectory_iff.mp directory).mono kept)

theorem transformAll_single {output : Output} (target : settings.out = some out)
    (yields : settings.Yields tree stage output) (free : tree.isDirectory out = false) :
    (transformAll tree stage settings).tree.read out = .ok output.2.pretty := by
  obtain ⟨documents, registry, loads, alone, delivers⟩ := yields
  rw [transformAll_eq loads, target] at delivers ⊢
  have fine : (Output.deliver tree (some out)
    (settings.outputsOf stage registry documents)).error = none := finish_fine delivers
  rw [finish_tree (returned_of_delivers delivers)]
  change (Output.deliver tree (some out)
    (settings.outputsOf stage registry documents)).tree.read out = _
  obtain ⟨document, result⟩ := output
  have filed : Output.deliver tree (some out) [(document, result)] =
      Output.toFile tree out result := by
    rw [Output.deliver, if_neg (Bool.eq_false_iff.mp free)]
  rw [alone, filed] at fine ⊢
  exact Output.toFile_read fine

theorem transformAll_nil (loads : settings.Loads tree documents registry)
    (target : settings.out = some out)
    (fruitless : ∀ document ∈ documents, ∃ failure,
      settings.resultOf stage registry document = .error (.failed failure)) :
    (transformAll tree stage settings).tree = (tree.makeDirectories out.parts).tree ∧
    ((∀ cause, (transformAll tree stage settings).error ≠ some (.noOutputDirectory out cause)) →
      (tree.makeDirectories out.parts).error = none) := by
  have delivered : Output.deliver tree (some out) (settings.outputsOf stage registry documents) =
      Output.toDirectory tree out [] := by
    rw [Settings.outputsOf_fruitless fruitless]
    exact Output.deliver_toDirectory (.inr (by decide))
  have returned : (documents.map fun document =>
      (document, settings.resultOf stage registry document)).findSome?
        (interruption? ·.2) = none := by
    refine List.findSome?_eq_none_iff.mpr fun result listed => ?_
    obtain ⟨document, among, rfl⟩ := List.mem_map.mp listed
    obtain ⟨failure, failed⟩ := fruitless document among
    dsimp only
    rw [failed]
    rfl
  rw [transformAll_eq loads, target]
  constructor
  · rw [finish_tree returned]
    change (Output.deliver tree (some out) (settings.outputsOf stage registry documents)).tree = _
    rw [delivered, Output.toDirectory_nil]
  · intro possible
    cases failed : (tree.makeDirectories out.parts).error with
    | none => rfl
    | some cause =>
      refine absurd (finish_error returned ?_) (possible cause)
      change (Output.deliver tree (some out)
        (settings.outputsOf stage registry documents)).error = _
      rw [delivered, Output.toDirectory_nil, failed, Option.map_some]

theorem out_ne_empty {arguments : List String}
    (parsed : ofArguments? arguments = some (.transform stage settings)) :
    settings.out ≠ some ⟨""⟩ := by
  unfold ofArguments? at parsed
  split at parsed
  · cases parsed
  · split at parsed
    · cases parsed
    · unfold ofSubcommand? at parsed
      split at parsed
      · obtain ⟨given, -, parsed⟩ := Option.bind_eq_some_iff.mp parsed
        obtain ⟨others, settled, parsed⟩ := Option.bind_eq_some_iff.mp parsed
        cases parsed
        exact Settings.out_ne_empty settled
      · split at parsed
        · obtain ⟨given, -, parsed⟩ := Option.bind_eq_some_iff.mp parsed
          split at parsed <;> cases parsed
        · cases parsed

/-- What a run of which all documents fail does to the place that results should go to. It changes
    no file, and no directory either if the place is one. Otherwise it makes the place a directory
    unless that is impossible, and then a later run leaves no file there: a run leaves its only
    result as a file only where there is no directory. -/
theorem transformAll_fruitless {arguments : List String}
    (parsed : ofArguments? arguments = some (.transform stage settings))
    (target : settings.out = some out) (loads : settings.Loads tree documents registry)
    (fruitless : ∀ document ∈ documents, ∃ failure,
      settings.resultOf stage registry document = .error (.failed failure)) :
    tree.Grows (transformAll tree stage settings).tree out.parts ∧
    (tree.isDirectory out = true → (transformAll tree stage settings).tree = tree) ∧
    ((∀ cause, (transformAll tree stage settings).error ≠ some (.noOutputDirectory out cause)) →
      ∀ later : Tree, (transformAll tree stage settings).tree.directories ⊆ later.directories →
        later.isDirectory out = true) ∧
    ∀ (later : Tree) (next : Stage) (others : Settings) (output : Output),
      others.out = some out → others.Yields later next output →
        ((transformAll later next others).tree.read out = .ok output.2.pretty ↔
          later.isDirectory out = false) := by
  obtain ⟨changed, possible⟩ := transformAll_nil loads target fruitless
  have makes := Tree.makeDirectories_makes tree out.parts
  have parts : out.parts ≠ [] := by
    refine Path.parts_ne_nil fun empty => out_ne_empty parsed ?_
    rw [target, ← empty]
  refine ⟨?_, fun directory => ?_, fun fine later kept => ?_, fun later next others output => ?_⟩
  · rw [changed]
    exact makes.grows
  · rw [changed, Tree.makeDirectories_idle (Tree.isDirectory_iff.mp directory)]
  · rw [changed] at kept
    exact Tree.isDirectory_iff.mpr ((makes.done (possible fine) parts).mono kept)
  · intro same yields
    constructor
    · intro filed
      cases directory : later.isDirectory out with
      | false => rfl
      | true =>
        rw [transformAll_directory directory] at filed
        cases filed
    · exact transformAll_single same yields

section Unresolved

/-- A source that no stage gets a result for, as its metaschema is not known. -/
def unresolvedText : String := "\x7b\x22$schema\x22:\x22urn:unknown\x22\x7d"

def unresolvedDocument : Document :=
  ⟨⟨"x.json"⟩, none, .object [("$schema", .string "urn:unknown")]⟩

def unresolvedSettings (out : String) : Settings := { inputs := ["x.json"], out := some ⟨out⟩ }

theorem transformAll_fruitless_directory :
    let before : Tree := .ofFiles [("x.json", unresolvedText), ("out/y.json", "1")]
    (transformAll before .plan (unresolvedSettings "out")).tree = before := by
  have parsed : ofArguments? ["plan", "-i", "x.json", "-o", "out"] =
    some (.transform .plan (unresolvedSettings "out")) := by decide +kernel
  have loads : (unresolvedSettings "out").Loads
    (.ofFiles [("x.json", unresolvedText), ("out/y.json", "1")]) [unresolvedDocument] {} :=
      ⟨by decide +kernel, rfl⟩
  have failed : (unresolvedSettings "out").resultOf .plan {} unresolvedDocument =
      .error (.failed (.unresolvedMetaschema "urn:unknown")) := by
    decide +kernel
  refine (transformAll_fruitless parsed rfl loads ?_).2.1 (by decide +kernel)
  intro document listed
  rw [List.mem_singleton.mp listed]
  exact ⟨_, failed⟩

/-- A run without a result makes a directory at the place for its result, so that when the source
    is corrected the result does not get there. It tries to even if there is a file. -/
theorem transformAll_leaves_directory :
    let before : Tree := .ofFiles [("x.json", unresolvedText)]
    let failing := transformAll before .plan (unresolvedSettings "out.json")
    let corrected := failing.tree.put ⟨.up 0, ["x.json"]⟩ "\x7b\x22enum\x22:[1]\x7d"
    let succeeding := transformAll corrected .plan (unresolvedSettings "out.json")
    let blocked : Tree := .ofFiles [("x.json", unresolvedText), ("out.json", "kept")]
    before.contains ⟨"out.json"⟩ = false ∧ failing.error = some (.failedInputs 1 1) ∧
      failing.tree ≠ before ∧ succeeding.error = none ∧
      succeeding.tree.read ⟨"out.json"⟩ = .error .isADirectory ∧
      (transformAll blocked .plan (unresolvedSettings "out.json")).error =
        some (.noOutputDirectory ⟨"out.json"⟩ .taken) := by
  decide +kernel

end Unresolved

end Command

end SchemaPack
