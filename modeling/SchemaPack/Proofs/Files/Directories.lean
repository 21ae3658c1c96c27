import SchemaPack.Proofs.Files.Tree

namespace SchemaPack

theorem Path.trim_front (parts : List String) : trim parts <+: parts := by
  cases parts with
  | nil => exact List.prefix_rfl
  | cons first rest =>
    rw [trim, List.cons_prefix_cons, ← List.reverse_suffix, List.reverse_reverse]
    exact ⟨rfl, List.dropWhile_suffix _⟩

theorem Path.parentParts?_front {parts above : List String}
    (parent : parentParts? parts = some above) : above <+: parts := by
  unfold parentParts? at parent
  split at parent
  · cases parent
  · cases parent
  · rw [← Option.some.inj parent]
    have last := List.dropLast_prefix (trim parts)
    exact (trim_front _).trans (last.trans (trim_front _))

namespace Tree

def HasDirectory (tree : Tree) (parts : List String) : Prop :=
  ∃ place, tree.resolve parts = .ok place ∧ tree.isDirectoryAt place = true

/-- Afterwards there are the same files, and the same directories with some added to them on the
    way that the parts lead. -/
structure Grows (tree after : Tree) (parts : List String) : Prop where
  files : after.files = tree.files
  directories : ∃ made, after.directories = tree.directories ++ made ∧
    ∀ place ∈ made, ∃ above, above <+: parts ∧ place = Place.along above

namespace Grows

variable {tree middle after : Tree} {parts above : List String}

theorem refl (tree : Tree) (parts : List String) : Grows tree tree parts :=
  ⟨rfl, [], by rw [List.append_nil], fun _ listed => absurd listed List.not_mem_nil⟩

theorem trans (first : Grows tree middle parts) (second : Grows middle after parts) :
    Grows tree after parts := by
  obtain ⟨made, shape, onWay⟩ := first.directories
  obtain ⟨more, shapeAfter, onWayAfter⟩ := second.directories
  refine ⟨second.files.trans first.files, made ++ more, ?_, fun place listed => ?_⟩
  · rw [shapeAfter, shape, List.append_assoc]
  · exact (List.mem_append.mp listed).elim (onWay place) (onWayAfter place)

theorem mono (grows : Grows tree after above) (front : above <+: parts) :
    Grows tree after parts := by
  obtain ⟨made, shape, onWay⟩ := grows.directories
  refine ⟨grows.files, made, shape, fun place listed => ?_⟩
  obtain ⟨way, short, leads⟩ := onWay place listed
  exact ⟨way, short.trans front, leads⟩

theorem subset (grows : Grows tree after parts) : tree.directories ⊆ after.directories := by
  obtain ⟨made, shape, -⟩ := grows.directories
  rw [shape]
  exact List.subset_append_left _ _

end Grows

variable {tree after later : Tree} {place : Place} {parts : List String}

theorem any_isDirectoryAt_iff :
    (tree.resolve parts).toOption.any tree.isDirectoryAt = true ↔ tree.HasDirectory parts := by
  unfold HasDirectory
  cases tree.resolve parts <;> simp [Except.toOption]

theorem isDirectory_iff {path : Path} :
    tree.isDirectory path = true ↔ tree.HasDirectory path.parts :=
  any_isDirectoryAt_iff

theorem read_isDirectory {path : Path} (has : tree.HasDirectory path.parts) :
    tree.read path = .error .isADirectory := by
  obtain ⟨place, resolved, directory⟩ := has
  rw [read, resolved]
  exact if_pos directory

theorem HasDirectory.mono (has : tree.HasDirectory parts)
    (kept : tree.directories ⊆ later.directories) : later.HasDirectory parts := by
  obtain ⟨place, resolved, directory⟩ := has
  exact ⟨place, resolve_mono kept resolved, isDirectoryAt_mono kept directory⟩

theorem foldl_step_idle {slashes : List String} (idle : ∀ part ∈ slashes, part = "") :
    slashes.foldl Place.step place = place := by
  induction slashes with
  | nil => rfl
  | cons part rest ih =>
    rw [List.forall_mem_cons] at idle
    rw [List.foldl_cons, idle.1]
    exact ih idle.2

theorem foldlM_enter_idle {slashes : List String} (idle : ∀ part ∈ slashes, part = "")
    (directory : tree.isDirectoryAt place = true) :
    slashes.foldlM tree.enter place = .ok place := by
  induction slashes with
  | nil => rfl
  | cons part rest ih =>
    rw [List.forall_mem_cons] at idle
    rw [List.foldlM_cons, idle.1, enter_idle directory]
    exact ih idle.2

theorem checkLength_of_append {more : List String} (started : parts ≠ [])
    (fits : checkLength (parts ++ more) = .ok ()) : checkLength parts = .ok () := by
  rw [checkLength_eq_ok] at fits ⊢
  cases more with
  | nil => rwa [List.append_nil] at fits
  | cons next rest =>
    rw [String.intercalate_append_of_ne_nil started (List.cons_ne_nil _ _),
      String.utf8ByteSize_append, String.utf8ByteSize_append] at fits
    omega

theorem dropSlashes_ne_nil (started : parts ≠ []) : dropSlashes parts ≠ [] := by
  obtain ⟨first, rest, rfl⟩ := List.exists_cons_of_ne_nil started
  exact List.cons_ne_nil _ _

theorem dropSlashes_front (parts : List String) : dropSlashes parts <+: parts := by
  obtain ⟨slashes, shape, -⟩ := dropSlashes_append parts
  exact ⟨slashes, shape.symm⟩

theorem resolve_dropSlashes (resolved : tree.resolve parts = .ok place) :
    tree.resolve (dropSlashes parts) = .ok place := by
  obtain ⟨slashes, shape, idle⟩ := dropSlashes_append parts
  obtain ⟨fits, started, reached⟩ := resolve_eq_ok.mp resolved
  have named := dropSlashes_ne_nil started
  rw [shape] at fits
  rw [shape, Place.origin_append named, List.foldlM_append] at reached
  obtain ⟨middle, first, onward⟩ := bind_eq_ok.mp reached
  have last := foldlM_enter_eq_foldl onward
  rw [foldl_step_idle idle] at last
  rw [last]
  exact resolve_eq_ok.mpr ⟨checkLength_of_append named fits, named, first⟩

theorem resolve_of_dropSlashes (fits : checkLength parts = .ok ())
    (resolved : tree.resolve (dropSlashes parts) = .ok place)
    (directory : tree.isDirectoryAt place = true) : tree.resolve parts = .ok place := by
  obtain ⟨slashes, shape, idle⟩ := dropSlashes_append parts
  obtain ⟨-, named, reached⟩ := resolve_eq_ok.mp resolved
  have started : parts ≠ [] := by
    rw [shape]
    exact List.append_ne_nil_of_left_ne_nil named _
  refine resolve_eq_ok.mpr ⟨fits, started, ?_⟩
  rw [shape, Place.origin_append named, List.foldlM_append, reached]
  exact foldlM_enter_idle idle directory

theorem makeDirectory_eq_ok (made : tree.makeDirectory parts = .ok after) :
    checkLength parts = .ok () ∧ ∃ place, tree.resolve (dropSlashes parts) = .ok place ∧
      after = { tree with directories := tree.directories ++ [place] } := by
  rw [makeDirectory, bind_eq_ok] at made
  obtain ⟨_, fits, made⟩ := made
  obtain ⟨place, resolved, made⟩ := bind_eq_ok.mp made
  split at made
  · cases made
  · exact ⟨fits, place, resolved, (Except.ok.inj made).symm⟩

theorem makeDirectory_taken (has : tree.HasDirectory parts) :
    tree.makeDirectory parts = .error .taken := by
  obtain ⟨place, resolved, directory⟩ := has
  have fits := (resolve_eq_ok.mp resolved).1
  have occupied : tree.occupied place = true := by rw [occupied, directory, Bool.true_or]
  rw [makeDirectory, fits, resolve_dropSlashes resolved]
  simp only [bind, Except.bind]
  rw [if_pos occupied]

theorem makeDirectory_makes (made : tree.makeDirectory parts = .ok after) :
    Grows tree after parts ∧ after.HasDirectory parts := by
  obtain ⟨fits, place, resolved, rfl⟩ := makeDirectory_eq_ok made
  have grows : Grows tree { tree with directories := tree.directories ++ [place] } parts := by
    refine ⟨rfl, [place], rfl, fun other listed => ⟨dropSlashes parts, dropSlashes_front _, ?_⟩⟩
    rw [List.mem_singleton.mp listed]
    exact resolve_eq_along resolved
  refine ⟨grows, place, ?_, ?_⟩
  · apply resolve_of_dropSlashes fits (resolve_mono grows.subset resolved)
    simp [isDirectoryAt]
  · simp [isDirectoryAt]

theorem ensureDirectory_makes (made : tree.ensureDirectory parts = .ok after) :
    Grows tree after parts ∧ after.HasDirectory parts := by
  unfold ensureDirectory at made
  split at made
  · split at made
    · rename_i directory
      cases made
      exact ⟨.refl _ _, any_isDirectoryAt_iff.mp directory⟩
    · cases made
  · exact makeDirectory_makes made

theorem ensureDirectory_idle (has : tree.HasDirectory parts) :
    tree.ensureDirectory parts = .ok tree := by
  rw [ensureDirectory, makeDirectory_taken has]
  dsimp only
  rw [if_pos (any_isDirectoryAt_iff.mpr has)]

/-- Whether or not it succeeds, an attempt adds directories only on the way; if it succeeds, the
    parts lead to one. -/
structure Attempt.Makes (attempt : Attempt) (tree : Tree) (parts : List String) : Prop where
  grows : Grows tree attempt.tree parts
  done : attempt.error = none → parts ≠ [] → attempt.tree.HasDirectory parts

namespace Attempt.Makes

variable {attempt : Attempt} {above : List String}

theorem failed {cause : FileError} : Makes { tree, error := some cause } tree parts :=
  ⟨.refl _ _, fun fine => nomatch fine⟩

theorem ofEnsured (tree : Tree) (parts : List String) :
    (Attempt.of tree (tree.ensureDirectory parts)).Makes tree parts := by
  cases ensured : tree.ensureDirectory parts with
  | ok after =>
    obtain ⟨grows, has⟩ := ensureDirectory_makes ensured
    exact ⟨grows, fun _ _ => has⟩
  | error cause => exact failed

theorem andThen {next : Tree → Attempt} (first : attempt.Makes tree above)
    (front : above <+: parts) (then_ : ∀ middle, (next middle).Makes middle parts) :
    (attempt.andThen next).Makes tree parts := by
  unfold Attempt.andThen
  split
  · rename_i failed
    refine ⟨first.grows.mono front, fun fine => ?_⟩
    rw [fine] at failed
    cases failed
  · exact ⟨(first.grows.mono front).trans (then_ _).grows, (then_ _).done⟩

end Attempt.Makes

theorem ensureDirectories_makes (tree : Tree) (levels : Nat) (parts : List String) :
    (tree.ensureDirectories levels parts).Makes tree parts := by
  fun_induction ensureDirectories tree levels parts with
  | case1 => exact ⟨.refl _ _, fun _ named => absurd rfl named⟩
  | case2 => exact .failed
  | case3 levels parts _ above parent missing ih =>
    exact ih.andThen (Path.parentParts?_front parent) fun middle => .ofEnsured middle parts
  | case4 levels parts => exact .ofEnsured _ _

theorem makeDirectories_makes (tree : Tree) (parts : List String) :
    (tree.makeDirectories parts).Makes tree parts :=
  ensureDirectories_makes tree parts.length parts

theorem makeDirectories_idle (has : tree.HasDirectory parts) :
    tree.makeDirectories parts = { tree } := by
  obtain ⟨place, resolved, -⟩ := id has
  obtain ⟨first, rest, rfl⟩ := List.exists_cons_of_ne_nil (resolve_eq_ok.mp resolved).2.1
  rw [makeDirectories, List.length_cons, ensureDirectories, ensureDirectory_idle has]
  · rfl
  · exact List.cons_ne_nil _ _

end Tree

end SchemaPack
