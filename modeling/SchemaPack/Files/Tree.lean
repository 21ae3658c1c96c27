import SchemaPack.Files.Path

namespace SchemaPack

inductive FileError where
  | notFound
  | taken
  | notADirectory
  | isADirectory
  | nameTooLong
  deriving DecidableEq, Repr

def FileError.message : FileError → String
  | .notFound => "No such file or directory (os error 2)"
  | .taken => "File exists (os error 17)"
  | .notADirectory => "Not a directory (os error 20)"
  | .isADirectory => "Is a directory (os error 21)"
  | .nameTooLong => "File name too long (os error 36)"

def nameLimit : Nat := 255

def pathLimit : Nat := 4095

/-- Where a path starts: at the root, or a number of levels above the working directory. -/
inductive Anchor where
  | root
  | up (levels : Nat)
  deriving DecidableEq, Repr

/-- Where a path leads: the names on the way down from where it starts. -/
structure Place where
  anchor : Anchor
  names : List String
  deriving DecidableEq, Repr

namespace Place

def root : Place := ⟨.root, []⟩

def workingDirectory : Place := ⟨.up 0, []⟩

def parent (place : Place) : Place :=
  match place.names, place.anchor with
  | [], .root => root
  | [], .up levels => ⟨.up (levels + 1), []⟩
  | names, anchor => ⟨anchor, names.dropLast⟩

def step (place : Place) (part : String) : Place :=
  if Path.isIdle part then place
  else if part = ".." then place.parent
  else ⟨place.anchor, place.names ++ [part]⟩

def path (place : Place) : Path :=
  let start := match place.anchor with
    | .root => "/"
    | .up levels => "/".intercalate ("." :: List.replicate levels "..")
  place.names.foldl Path.join ⟨start⟩

def relative? (place : Place) : Option String :=
  if place.anchor = .up 0 then some ("/".intercalate place.names) else none

def isAbove (above place : Place) : Bool :=
  above.anchor == place.anchor && above.names.length < place.names.length &&
    above.names.isPrefixOf place.names

end Place

/-- What is known of the files: the texts and directories at their places. -/
structure Tree where
  files : List (Place × String) := []
  directories : List Place := []
  deriving DecidableEq, Repr

namespace Tree

def contentAt? (tree : Tree) (place : Place) : Option String := tree.files.lookup place

/-- Every place where a path can start is a directory. -/
def isDirectoryAt (tree : Tree) (place : Place) : Bool :=
  place.names.isEmpty || tree.directories.contains place

def occupied (tree : Tree) (place : Place) : Bool :=
  tree.isDirectoryAt place || (tree.contentAt? place).isSome

/-- Goes on from a place, which must be a directory before the name there can be too long. -/
def enter (tree : Tree) (place : Place) (part : String) : Except FileError Place :=
  if tree.isDirectoryAt place then
    if nameLimit < part.utf8ByteSize then .error .nameTooLong else .ok (place.step part)
  else if tree.occupied place then .error .notADirectory
  else .error .notFound

/-- A path that is too long leads nowhere, whatever is there. -/
def checkLength (parts : List String) : Except FileError Unit :=
  if pathLimit < ("/".intercalate parts).utf8ByteSize then .error .nameTooLong else .ok ()

/-- The place that the parts of a path lead to. Nothing needs to be there. -/
def resolve (tree : Tree) (parts : List String) : Except FileError Place := do
  checkLength parts
  match parts with
  | [] => .error .notFound
  | "" :: rest => rest.foldlM tree.enter .root
  | parts => parts.foldlM tree.enter .workingDirectory

def isDirectory (tree : Tree) (path : Path) : Bool :=
  (tree.resolve path.parts).toOption.any tree.isDirectoryAt

def contains (tree : Tree) (path : Path) : Bool :=
  (tree.resolve path.parts).toOption.any tree.occupied

def read (tree : Tree) (path : Path) : Except FileError String := do
  let place ← tree.resolve path.parts
  if tree.isDirectoryAt place then .error .isADirectory
  else
    match tree.contentAt? place with
    | some content => .ok content
    | none => .error .notFound

def put (tree : Tree) (place : Place) (content : String) : Tree :=
  if (tree.contentAt? place).isSome then
    { tree with
      files := tree.files.map fun file => if file.1 == place then (place, content) else file }
  else { tree with files := tree.files ++ [(place, content)] }

def dropSlashes : List String → List String
  | [] => []
  | first :: rest => first :: (rest.reverse.dropWhile (·.isEmpty)).reverse

/-- Writes a file. Its directory must be there, and with a slash at the end it cannot be a file,
    whatever its name is. -/
def write (tree : Tree) (path : Path) (content : String) : Except FileError Tree := do
  checkLength path.parts
  let parts := dropSlashes path.parts
  if parts.length < path.parts.length then
    let _ ← tree.resolve (parts.dropLast ++ ["."])
    .error .isADirectory
  else
    let place ← tree.resolve parts
    if tree.isDirectoryAt place then .error .isADirectory else .ok (tree.put place content)

def makeDirectory (tree : Tree) (parts : List String) : Except FileError Tree := do
  checkLength parts
  let place ← tree.resolve (dropSlashes parts)
  if tree.occupied place then .error .taken
  else .ok { tree with directories := tree.directories ++ [place] }

def ensureDirectory (tree : Tree) (parts : List String) : Except FileError Tree :=
  match tree.makeDirectory parts with
  | .error .taken =>
    if (tree.resolve parts).toOption.any tree.isDirectoryAt then .ok tree else .error .taken
  | result => result

/-- A tree after an attempt to change it, and what the attempt failed for. What was done before it
    failed stays done. -/
structure Attempt where
  tree : Tree
  error : Option FileError := none

namespace Attempt

def of (before : Tree) : Except FileError Tree → Attempt
  | .ok tree => { tree }
  | .error cause => { tree := before, error := some cause }

def andThen (first : Attempt) (next : Tree → Attempt) : Attempt :=
  if first.error.isSome then first else next first.tree

end Attempt

def ensureDirectories (tree : Tree) : Nat → List String → Attempt
  | _, [] => { tree }
  | 0, _ => { tree, error := some .notFound }
  | levels + 1, parts =>
    match tree.ensureDirectory parts, Path.parentParts? parts with
    | .error .notFound, some above =>
      (tree.ensureDirectories levels above).andThen fun tree =>
        .of tree (tree.ensureDirectory parts)
    | result, _ => .of tree result

def makeDirectories (tree : Tree) (parts : List String) : Attempt :=
  tree.ensureDirectories parts.length parts

/-- The ways down from a place to all that is below it, each directory before what it holds. -/
def below (tree : Tree) (place : Place) : List (List String) :=
  let places := (tree.files.map (·.1) ++ tree.directories).filter place.isAbove
  let ways := places.map fun inner => inner.names.drop place.names.length
  ways.mergeSort fun a b => (List.compareLex compare a b).isLE

def waysBelow (tree : Tree) (path : Path) : List (List String) :=
  match tree.resolve path.parts with
  | .ok place => tree.below place
  | .error _ => []

def plant (tree : Tree) (file : String × String) : Tree :=
  let names := splitText '/' file.1
  let above := (List.range names.length).map fun n => Place.mk (.up 0) (names.take n)
  let missing := above.filter fun place => !tree.isDirectoryAt place
  { tree with directories := tree.directories ++ missing }.put ⟨.up 0, names⟩ file.2

def ofFiles (files : List (String × String)) : Tree := files.foldl plant {}

def changesFrom (tree before : Tree) : List (Place × String) :=
  tree.files.filter fun file => before.contentAt? file.1 != some file.2

end Tree

end SchemaPack
