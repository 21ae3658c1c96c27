import SchemaPack.CommandLine.Run

namespace SchemaPack

/-- Adds what is at a place. What cannot be read is left out. -/
def look (tree : Tree) (place : Place) : IO Tree := do
  if tree.occupied place then return tree
  try
    let path ← IO.FS.realPath place.path.text
    if ← path.isDir then return { tree with directories := place :: tree.directories }
    let content ← IO.FS.readFile path
    return { tree with files := (place, content) :: tree.files }
  catch _ => return tree

partial def lookBelow (tree : Tree) (place : Place) (depth : Option Nat) : IO Tree := do
  if depth = some 0 then return tree
  let entries ← try (← IO.FS.realPath place.path.text).readDir catch _ => pure #[]
  let mut tree := tree
  for entry in entries do
    let inner := place.step entry.fileName
    tree ← look tree inner
    if tree.isDirectoryAt inner then tree ← lookBelow tree inner (depth.map (· - 1))
  return tree

def lookAlong (tree : Tree) (path : Path) (depth : Option Nat) : IO Tree := do
  let absolute := path.parts.head? == some ""
  let mut place := if absolute then Place.root else Place.workingDirectory
  let mut tree := tree
  for part in path.parts do
    place := place.step part
    tree ← look tree place
  lookBelow tree place depth

def store (before after : Tree) : IO Unit := do
  for place in after.directories do
    unless before.isDirectoryAt place do IO.FS.createDirAll place.path.text
  for (place, content) in after.changesFrom before do
    IO.FS.writeFile place.path.text content

end SchemaPack

open SchemaPack in
def main (arguments : List String) : IO UInt32 := do
  let command := Command.ofArguments? arguments
  let mut tree : Tree := {}
  for text in (command.map Command.sources).getD [] do
    tree ← lookAlong tree (Glob.base text) (Glob.depth? text)
  for path in command.bind Command.target? do
    tree ← lookAlong tree path (some 1)
  let outcome := Command.runArguments tree arguments
  store tree outcome.tree
  IO.print outcome.stdout
  IO.eprint outcome.stderr
  return UInt32.ofNat outcome.code
