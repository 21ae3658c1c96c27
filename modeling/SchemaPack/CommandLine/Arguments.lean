import SchemaPack.Compile
import SchemaPack.Files.Path

namespace SchemaPack

inductive Arity where
  | zero
  | one
  | oneOrMore
  deriving DecidableEq, Repr

inductive CommandOption where
  | input
  | out
  | ndjson
  | jsonPointer
  | defaultDialect
  | metaschema
  deriving DecidableEq, Repr

namespace CommandOption

def long : CommandOption → String
  | .input => "input"
  | .out => "out"
  | .ndjson => "ndjson"
  | .jsonPointer => "json-pointer"
  | .defaultDialect => "default-dialect"
  | .metaschema => "metaschema"

def short? : CommandOption → Option Char
  | .input => some 'i'
  | .out => some 'o'
  | _ => none

def arity : CommandOption → Arity
  | .ndjson => .zero
  | .input | .metaschema => .oneOrMore
  | .out | .jsonPointer | .defaultDialect => .one

/-- The words of one occurrence. A word that is attached to the option is its only one. -/
def words? (option : CommandOption) (attached : Option String) (following : List String) :
    Option (List String) :=
  match option.arity, attached, following with
  | .zero, none, [] => some []
  | .one, some word, [] => some [word]
  | .one, none, [word] => some [word]
  | .oneOrMore, some word, [] => some [word]
  | .oneOrMore, none, word :: others => some (word :: others)
  | _, _, _ => none

def read? (known : List CommandOption) (word : String) :
    Option (CommandOption × Option String) :=
  match word.toList with
  | '-' :: '-' :: rest =>
    let (name, after) := rest.span (· != '=')
    let attached := if after.isEmpty then none else some (String.ofList after.tail)
    (known.find? (·.long.toList == name)).map (·, attached)
  | '-' :: c :: rest =>
    let attached := match rest with
      | [] => none
      | '=' :: rest | rest => some (String.ofList rest)
    (known.find? (·.short? == some c)).map (·, attached)
  | _ => none

end CommandOption

/-- The options of a command with their words, in the order they were given. -/
abbrev Occurrences := List (CommandOption × List String)

namespace Occurrences

def isOption (word : String) : Bool := word.length != 1 && word.toList.head? == some '-'

/-- The words before the first option, then each option with the words that follow it. -/
def group : List String → List String × List (String × List String)
  | [] => ([], [])
  | word :: rest =>
    let (following, groups) := group rest
    if isOption word then ([], (word, following) :: groups) else (word :: following, groups)

def dropEnd (groups : List (String × List String)) : List (String × List String) :=
  if groups.getLast? = some ("--", []) then groups.dropLast else groups

/-- Every word must belong to an option, and only options that take any number of words may be
    given more than once. -/
def read? (known : List CommandOption) (words : List String) : Option Occurrences := do
  let (stray, groups) := group words
  let occurrences ← (dropEnd groups).mapM fun (head, following) => do
    let (option, attached) ← CommandOption.read? known head
    return (option, ← option.words? attached following)
  let unrepeated := known.all fun option =>
    option.arity == .oneOrMore || occurrences.countP (·.1 == option) ≤ 1
  if stray.isEmpty && unrepeated then some occurrences else none

def has (occurrences : Occurrences) (option : CommandOption) : Bool :=
  occurrences.any (·.1 == option)

def words (occurrences : Occurrences) (option : CommandOption) : List String :=
  (occurrences.filter (·.1 == option)).flatMap (·.2)

def word? (occurrences : Occurrences) (option : CommandOption) : Option String :=
  (occurrences.words option).head?

end Occurrences

structure Settings where
  inputs : List String
  ndjson : Bool := false
  pointer : Option String := none
  defaultDialect : String := Dialect.draft202012
  metaschemas : List String := []
  out : Option Path := none
  deriving DecidableEq, Repr

def Settings.ofOccurrences? (given : Occurrences) : Option Settings :=
  if given.has .input && given.word? .out != some "" then
    some {
      inputs := given.words .input
      ndjson := given.has .ndjson
      pointer := given.word? .jsonPointer
      defaultDialect := (given.word? .defaultDialect).getD Dialect.draft202012
      metaschemas := given.words .metaschema
      out := (given.word? .out).map Path.mk }
  else none

inductive Command where
  | version
  | transform (stage : Stage) (settings : Settings)
  | inspect (inputs : List String)
  deriving DecidableEq, Repr

namespace Command

def sources : Command → List String
  | .version => []
  | .transform _ settings => settings.inputs ++ settings.metaschemas
  | .inspect inputs => inputs

def target? : Command → Option Path
  | .transform _ settings => settings.out
  | .version | .inspect _ => none

def stage? : String → Option Stage
  | "compile" => some .compile
  | "canonicalize" => some .canonicalize
  | "plan" => some .plan
  | _ => none

def ofSubcommand? (name : String) (words : List String) : Option Command :=
  match stage? name with
  | some stage => do
    let given ← Occurrences.read?
      [.input, .out, .ndjson, .jsonPointer, .defaultDialect, .metaschema] words
    return .transform stage (← Settings.ofOccurrences? given)
  | none =>
    if name = "inspect" then do
      let given ← Occurrences.read? [.input] words
      if given.has .input then some (.inspect (given.words .input)) else none
    else none

def ofArguments? : List String → Option Command
  | [] => none
  | word :: rest =>
    if word = "--version" || word.startsWith "-V" then some .version
    else ofSubcommand? word rest

end Command

end SchemaPack
