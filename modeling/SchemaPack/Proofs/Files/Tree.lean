import SchemaPack.Files.Tree
import SchemaPack.Proofs.Except
import SchemaPack.Proofs.Files.Path

namespace SchemaPack

namespace Place

def origin (parts : List String) : Place :=
  if parts.head? = some "" then root else workingDirectory

/-- Where a path leads when there is a directory at every step of the way. -/
def along (parts : List String) : Place := parts.foldl step (origin parts)

theorem origin_append {parts : List String} (started : parts ≠ []) (more : List String) :
    origin (parts ++ more) = origin parts := by
  obtain ⟨first, rest, rfl⟩ := List.exists_cons_of_ne_nil started
  rfl

theorem step_plain {name : String} (plain : Path.IsPlain name) (place : Place) :
    place.step name = ⟨place.anchor, place.names ++ [name]⟩ := by
  have entry := plain.entry
  unfold Path.step? at entry
  split at entry
  · cases entry
  · rename_i busy
    split at entry
    · cases entry
    · rename_i onward
      rw [step, if_neg busy, if_neg onward]

theorem along_plain {name : String} (plain : Path.IsPlain name) (above : List String) :
    along (above ++ [name]) = ⟨(along above).anchor, (along above).names ++ [name]⟩ := by
  have same : origin (above ++ [name]) = origin above := by
    cases above with
    | nil => simp [origin, plain.ne_empty]
    | cons first rest => exact origin_append (List.cons_ne_nil _ _) _
  rw [along, List.foldl_append, same, List.foldl_cons, List.foldl_nil, step_plain plain]
  rfl

theorem along_plain_inj {above : List String} {a b : String} (plain : Path.IsPlain a)
    (other : Path.IsPlain b) (same : along (above ++ [a]) = along (above ++ [b])) : a = b := by
  rw [along_plain plain, along_plain other, Place.mk.injEq, List.append_cancel_left_eq] at same
  exact List.cons.inj same.2 |>.1

end Place

namespace Tree

section Resolving

variable {tree later : Tree} {place next : Place} {parts : List String}

theorem enter_eq_ok {part : String} : tree.enter place part = .ok next ↔
    tree.isDirectoryAt place = true ∧ part.utf8ByteSize ≤ nameLimit ∧ next = place.step part := by
  unfold enter
  split
  · rename_i directory
    split
    · rename_i long
      simp [directory, Nat.not_le.mpr long]
    · rename_i short
      simp [directory, Nat.not_lt.mp short, eq_comm]
  · rename_i nothing
    split <;> simp [nothing]

theorem enter_idle (directory : tree.isDirectoryAt place = true) :
    tree.enter place "" = .ok place :=
  enter_eq_ok.mpr ⟨directory, by decide, rfl⟩

theorem foldlM_enter_eq_foldl (reached : parts.foldlM tree.enter place = .ok next) :
    next = parts.foldl Place.step place := by
  induction parts generalizing place with
  | nil => cases reached; rfl
  | cons part rest ih =>
    rw [List.foldlM_cons, bind_eq_ok] at reached
    obtain ⟨middle, first, reached⟩ := reached
    rw [List.foldl_cons, ← (enter_eq_ok.mp first).2.2]
    exact ih reached

theorem checkLength_eq_ok : checkLength parts = .ok () ↔
    ("/".intercalate parts).utf8ByteSize ≤ pathLimit := by
  unfold checkLength
  split
  · rename_i long
    simp [Nat.not_le.mpr long]
  · rename_i short
    simp [Nat.not_lt.mp short]

theorem resolve_eq_ok : tree.resolve parts = .ok place ↔
    checkLength parts = .ok () ∧ parts ≠ [] ∧
      parts.foldlM tree.enter (Place.origin parts) = .ok place := by
  unfold resolve
  cases checkLength parts with
  | error cause => simp [bind, Except.bind]
  | ok _ =>
    simp only [bind, Except.bind, true_and]
    split
    · simp
    · rename_i rest
      have start : tree.enter Place.root "" = .ok Place.root := enter_idle rfl
      have slash : Place.origin ("" :: rest) = Place.root := rfl
      rw [slash, List.foldlM_cons, start]
      exact ⟨fun reached => ⟨List.cons_ne_nil _ _, reached⟩, fun reached => reached.2⟩
    · rename_i named relative
      have start : Place.origin parts = Place.workingDirectory := by
        rw [Place.origin, if_neg]
        intro leading
        obtain ⟨rest, shape⟩ := List.head?_eq_some_iff.mp leading
        exact relative rest shape
      rw [start]
      exact ⟨fun reached => ⟨named, reached⟩, fun reached => reached.2⟩

theorem resolve_eq_along (resolved : tree.resolve parts = .ok place) :
    place = Place.along parts :=
  foldlM_enter_eq_foldl (resolve_eq_ok.mp resolved).2.2

theorem isDirectoryAt_mono (kept : tree.directories ⊆ later.directories)
    (directory : tree.isDirectoryAt place = true) : later.isDirectoryAt place = true := by
  unfold isDirectoryAt at directory ⊢
  rw [Bool.or_eq_true, List.contains_iff_mem] at directory ⊢
  exact directory.imp id fun listed => kept listed

theorem foldlM_enter_mono (kept : tree.directories ⊆ later.directories)
    (reached : parts.foldlM tree.enter place = .ok next) :
    parts.foldlM later.enter place = .ok next := by
  induction parts generalizing place with
  | nil => exact reached
  | cons part rest ih =>
    rw [List.foldlM_cons, bind_eq_ok] at reached ⊢
    obtain ⟨middle, first, reached⟩ := reached
    obtain ⟨directory, short, step⟩ := enter_eq_ok.mp first
    exact ⟨middle, enter_eq_ok.mpr ⟨isDirectoryAt_mono kept directory, short, step⟩, ih reached⟩

/-- More directories do not change where a path leads. -/
theorem resolve_mono (kept : tree.directories ⊆ later.directories)
    (resolved : tree.resolve parts = .ok place) : later.resolve parts = .ok place := by
  obtain ⟨fits, named, reached⟩ := resolve_eq_ok.mp resolved
  exact resolve_eq_ok.mpr ⟨fits, named, foldlM_enter_mono kept reached⟩

end Resolving

section Contents

variable {tree after : Tree} {path : Path} {place other : Place} {content text : String}

theorem put_directories : (tree.put place content).directories = tree.directories := by
  unfold put
  split <;> rfl

theorem put_isDirectoryAt : (tree.put place content).isDirectoryAt other =
    tree.isDirectoryAt other := by
  rw [isDirectoryAt, isDirectoryAt, put_directories]

theorem put_resolve {parts : List String} (resolved : tree.resolve parts = .ok other) :
    (tree.put place content).resolve parts = .ok other := by
  refine resolve_mono ?_ resolved
  rw [put_directories]
  exact List.Subset.refl _

theorem lookup_map_put (files : List (Place × String)) (other : Place) :
    (files.map fun file => if file.1 == place then (place, content) else file).lookup other =
      if other = place then (files.lookup place).map fun _ => content else files.lookup other := by
  induction files with
  | nil => simp
  | cons file rest ih =>
    obtain ⟨here, old⟩ := file
    simp only [List.map_cons, beq_iff_eq] at ih ⊢
    by_cases same : here = place
    · subst same
      rw [if_pos rfl, List.lookup_cons, List.lookup_cons, List.lookup_cons, ih]
      by_cases asked : other = here
      · simp [asked]
      · simp [asked, beq_eq_false_iff_ne.mpr asked]
    · rw [if_neg same, List.lookup_cons, List.lookup_cons, List.lookup_cons, ih]
      by_cases asked : other = place
      · simp [asked, beq_eq_false_iff_ne.mpr (Ne.symm same)]
      · simp [asked]

theorem contentAt?_put : (tree.put place content).contentAt? other =
    if other = place then some content else tree.contentAt? other := by
  unfold put contentAt?
  split
  · rename_i known
    obtain ⟨old, found⟩ := Option.isSome_iff_exists.mp known
    rw [lookup_map_put, found, Option.map_some]
  · rename_i unknown
    rw [List.lookup_append, List.lookup_cons]
    by_cases same : other = place
    · rw [same, Option.not_isSome_iff_eq_none.mp unknown]
      simp
    · simp [same, beq_eq_false_iff_ne.mpr same]

theorem read_eq_ok : tree.read path = .ok text ↔ ∃ place, tree.resolve path.parts = .ok place ∧
    tree.isDirectoryAt place = false ∧ tree.contentAt? place = some text := by
  unfold read
  rw [bind_eq_ok]
  refine exists_congr fun place => and_congr_right fun _ => ?_
  split
  · rename_i directory
    simp [directory]
  · rename_i file
    cases tree.contentAt? place <;> simp [file]

theorem dropSlashes_append (parts : List String) :
    ∃ slashes, parts = dropSlashes parts ++ slashes ∧ ∀ part ∈ slashes, part = "" := by
  cases parts with
  | nil => exact ⟨[], rfl, fun _ listed => absurd listed List.not_mem_nil⟩
  | cons first rest =>
    refine ⟨(rest.reverse.takeWhile (·.isEmpty)).reverse, ?_, fun part listed => ?_⟩
    · rw [dropSlashes, List.cons_append, ← List.reverse_append, List.takeWhile_append_dropWhile,
        List.reverse_reverse]
    · have empty := List.all_eq_true.mp List.all_takeWhile part (List.mem_reverse.mp listed)
      exact String.isEmpty_iff.mp empty

theorem write_eq_ok (written : tree.write path content = .ok after) :
    ∃ place, tree.resolve path.parts = .ok place ∧ tree.isDirectoryAt place = false ∧
      after = tree.put place content := by
  rw [write, bind_eq_ok] at written
  obtain ⟨_, -, written⟩ := written
  dsimp only at written
  split at written
  · obtain ⟨_, -, written⟩ := bind_eq_ok.mp written
    cases written
  · rename_i long
    -- with no slash at the end nothing is dropped
    obtain ⟨slashes, shape, -⟩ := dropSlashes_append path.parts
    have same : dropSlashes path.parts = path.parts := by
      have lengths := congrArg List.length shape
      rw [List.length_append] at lengths
      have none_ : slashes = [] := List.length_eq_zero_iff.mp (by omega)
      rw [none_, List.append_nil] at shape
      exact shape.symm
    rw [same] at written
    obtain ⟨place, resolved, written⟩ := bind_eq_ok.mp written
    split at written
    · cases written
    · rename_i file
      exact ⟨place, resolved, Bool.eq_false_iff.mpr file, (Except.ok.inj written).symm⟩

theorem write_directories (written : tree.write path content = .ok after) :
    after.directories = tree.directories := by
  obtain ⟨place, -, -, rfl⟩ := write_eq_ok written
  exact put_directories

theorem read_of_write (written : tree.write path content = .ok after) :
    after.read path = .ok content := by
  obtain ⟨place, resolved, file, rfl⟩ := write_eq_ok written
  refine read_eq_ok.mpr ⟨place, put_resolve resolved, ?_, ?_⟩
  · rw [put_isDirectoryAt, file]
  · rw [contentAt?_put, if_pos rfl]

theorem read_of_write_ne {elsewhere : Path} (written : tree.write path content = .ok after)
    (apart : Place.along elsewhere.parts ≠ Place.along path.parts)
    (known : tree.read elsewhere = .ok text) : after.read elsewhere = .ok text := by
  obtain ⟨place, resolved, -, rfl⟩ := write_eq_ok written
  obtain ⟨other, found, file, content⟩ := read_eq_ok.mp known
  refine read_eq_ok.mpr ⟨other, put_resolve found, ?_, ?_⟩
  · rw [put_isDirectoryAt, file]
  · rw [contentAt?_put, if_neg, content]
    rwa [resolve_eq_along resolved, resolve_eq_along found]

end Contents

section Joining

variable {tree after : Tree} {directory : Path} {name other content text : String}

theorem along_join_inj (plain : Path.IsPlain name) (plainer : Path.IsPlain other)
    (same : Place.along (directory.join name).parts = Place.along (directory.join other).parts) :
    name = other := by
  obtain ⟨above, parts⟩ := Path.parts_join directory
  rw [parts name plain, parts other plainer] at same
  exact Place.along_plain_inj plain plainer same

theorem read_join_of_write_ne (plain : Path.IsPlain name) (plainer : Path.IsPlain other)
    (apart : other ≠ name) (written : tree.write (directory.join name) content = .ok after)
    (known : tree.read (directory.join other) = .ok text) :
    after.read (directory.join other) = .ok text :=
  read_of_write_ne written (fun same => apart (along_join_inj plainer plain same)) known

end Joining

end Tree

end SchemaPack
