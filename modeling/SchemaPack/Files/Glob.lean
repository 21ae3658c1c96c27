import SchemaPack.Files.Tree

namespace SchemaPack

inductive GlobToken where
  | char (c : Char)
  | anyChar
  | anyText
  | anyDirectories
  | oneOf (ranges : List (Char × Char))
  | noneOf (ranges : List (Char × Char))
  deriving DecidableEq, Repr

inductive GlobFault where
  | threeStars
  | recursiveInside
  | openRange
  deriving DecidableEq, Repr

def GlobFault.message : GlobFault → String
  | .threeStars => "wildcards are either regular `*` or recursive `**`"
  | .recursiveInside => "recursive wildcards must form a single path component"
  | .openRange => "invalid range pattern"

inductive GlobError where
  | malformed (position : Nat) (fault : GlobFault)
  | noMatch (pattern : String)
  deriving DecidableEq, Repr

def GlobError.message : GlobError → String
  | .malformed position fault =>
    "Pattern syntax error near position " ++ toString position ++ ": " ++ fault.message
  | .noMatch pattern => "glob pattern matched no files: " ++ pattern

namespace GlobToken

def readRanges : List Char → List (Char × Char)
  | first :: '-' :: last :: rest => (first, last) :: readRanges rest
  | c :: rest => (c, c) :: readRanges rest
  | [] => []

def readRange? : List Char → Option (List (Char × Char) × List Char)
  | [] => none
  | first :: rest =>
    let (inner, after) := rest.span (· != ']')
    if after.isEmpty then none else some (readRanges (first :: inner), after.tail)

def readBracket? : List Char → Option (GlobToken × List Char)
  | '!' :: rest => (readRange? rest).map fun (ranges, rest) => (.noneOf ranges, rest)
  | rest => (readRange? rest).map fun (ranges, rest) => (.oneOf ranges, rest)

/-- Reads the tokens of a pattern from a position on, in no more steps than there are characters.
    Two stars must be all that stands between two slashes. -/
def readFrom (length : Nat) :
    Nat → Option Char → List Char → Except GlobError (List GlobToken)
  | _, _, [] => .ok []
  | 0, _, _ => .ok []
  | steps + 1, before, text => do
    let position := length - text.length
    match text with
    | '?' :: rest => return .anyChar :: (← readFrom length steps (some '?') rest)
    | '*' :: '*' :: '*' :: _ => .error (.malformed (position + 2) .threeStars)
    | '*' :: '*' :: rest =>
      if before.any (· != '/') then .error (.malformed (position - 1) .recursiveInside)
      else
        match rest with
        | [] => return [.anyDirectories]
        | '/' :: rest => return .anyDirectories :: (← readFrom length steps (some '/') rest)
        | _ => .error (.malformed (position + 2) .recursiveInside)
    | '*' :: rest => return .anyText :: (← readFrom length steps (some '*') rest)
    | '[' :: rest =>
      match readBracket? rest with
      | some (token, rest) => return token :: (← readFrom length steps (some ']') rest)
      | none => .error (.malformed position .openRange)
    | c :: rest => return .char c :: (← readFrom length steps (some c) rest)
    | [] => return []

def read (pattern : String) : Except GlobError (List GlobToken) :=
  readFrom pattern.length pattern.length none pattern.toList

def accepts (c : Char) : GlobToken → Bool
  | .char expected => c == expected
  | .anyChar => true
  | .oneOf ranges => ranges.any fun (first, last) => first ≤ c && c ≤ last
  | .noneOf ranges => !ranges.any fun (first, last) => first ≤ c && c ≤ last
  | .anyText | .anyDirectories => false

def isChar : GlobToken → Option Char
  | .char c => some c
  | _ => none

end GlobToken

structure GlobPart where
  tokens : List GlobToken
  deriving DecidableEq, Repr

namespace GlobPart

def literal? (part : GlobPart) : Option String :=
  (part.tokens.mapM GlobToken.isChar).map String.ofList

def isRecursive (part : GlobPart) : Bool := part.tokens.contains .anyDirectories

def anyRest (holds : List Char → Bool) : List Char → Bool
  | [] => holds []
  | c :: rest => holds (c :: rest) || anyRest holds rest

def matchTokens : List GlobToken → List Char → Bool
  | [], text => text.isEmpty
  | .anyText :: tokens, text => anyRest (matchTokens tokens) text
  | _ :: _, [] => false
  | token :: tokens, c :: text => token.accepts c && matchTokens tokens text

def accepts (part : GlobPart) (name : String) : Bool := matchTokens part.tokens name.toList

/-- The names of the directory itself and the one above it that a part stands for. It must begin
    with a point of its own. -/
def pointNames (part : GlobPart) : List String :=
  if part.tokens.head? = some (.char '.') then ["..", "."].filter part.accepts else []

end GlobPart

structure Glob where
  parts : List GlobPart
  absolute : Bool
  directoriesOnly : Bool

namespace Glob

def specials : List Char := ['*', '?', '[', '\x7b']

def isPattern (text : String) : Bool := text.toList.any specials.contains

/-- One recursive part does the same as several in a row. -/
def collapse : List GlobPart → List GlobPart
  | part :: next :: rest =>
    if part.isRecursive && next.isRecursive then collapse (next :: rest)
    else part :: collapse (next :: rest)
  | parts => parts

def partTexts (pattern : String) : List String :=
  let texts := splitText '/' pattern
  if texts.getLast? = some "" then texts.dropLast else texts

def read (pattern : String) : Except GlobError Glob := do
  let _ ← GlobToken.read pattern
  let absolute := pattern.toList.head? == some '/'
  let texts := if absolute then (partTexts pattern).drop 1 else partTexts pattern
  let parts ← texts.mapM fun text => return GlobPart.mk (← GlobToken.read text)
  return ⟨collapse parts, absolute, pattern.toList.getLast? == some '/'⟩

def below (directory : Path) (name : String) : Path :=
  if directory.isHere then ⟨name⟩ else directory.join name

def follow (tree : Tree) (directoriesOnly : Bool) (path : Path) : List GlobPart → List Path
  | [] => if directoriesOnly && !tree.isDirectory path then [] else [path]
  | part :: rest =>
    match part.literal? with
    | some name =>
      let next := below path name
      let found := if name = "." ∨ name = ".." then tree.isDirectory path else tree.contains next
      if found then follow tree directoriesOnly next rest else []
    | none =>
      if !tree.isDirectory path then []
      else
        let ways := tree.waysBelow path
        if part.isRecursive then
          let entries := ways.map fun names => (names.getLastD "", names.foldl below path)
          match rest with
          | [] => (entries.map (·.2)).filter tree.isDirectory
          | next :: rest =>
            (entries.filter (next.accepts ·.1)).flatMap fun entry =>
              follow tree directoriesOnly entry.2 rest
        else
          let names := (ways.filter (·.length == 1)).map (·.headD "")
          let found := part.pointNames.map path.join ++
            (names.filter part.accepts).map (below path)
          found.flatMap fun path => follow tree directoriesOnly path rest

def matchesIn (tree : Tree) (glob : Glob) : List Path :=
  let start : Path := ⟨if glob.absolute then "/" else "."⟩
  (follow tree glob.directoriesOnly start glob.parts).mergeSort fun p q => (p.compare q).isLE

/-- The paths that a text stands for, which is a path itself if it is no pattern. -/
def resolve (tree : Tree) (text : String) : Except GlobError (List Path) := do
  if isPattern text then
    let found := (← read text).matchesIn tree
    if found.isEmpty then .error (.noMatch text) else .ok found
  else .ok [⟨text⟩]

def literalParts (text : String) : List String := (splitText '/' text).takeWhile (!isPattern ·)

/-- A path that leads to, or above, all that a text stands for. -/
def base (text : String) : Path :=
  if isPattern text then
    match literalParts text with
    | [] => ⟨"."⟩
    | [""] => ⟨"/"⟩
    | parts => ⟨"/".intercalate parts⟩
  else ⟨text⟩

def depth? (text : String) : Option Nat :=
  let parts := splitText '/' text
  if parts.contains "**" then none else some (parts.length - (literalParts text).length)

def resolveAll (tree : Tree) (texts : List String) : Except GlobError (List Path) := do
  return (← texts.mapM (resolve tree)).flatten

end Glob

end SchemaPack
