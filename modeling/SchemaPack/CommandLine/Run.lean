import SchemaPack.CommandLine.Arguments
import SchemaPack.CommandLine.Error
import SchemaPack.Encoding.Reader
import SchemaPack.Json.Printer

namespace SchemaPack

/-- A schema that was read from a file, numbered if the file holds several. -/
structure Document where
  source : Path
  index : Option Nat
  value : Json
  deriving DecidableEq

namespace Document

def label (document : Document) : String :=
  match document.index with
  | some index => document.source.text ++ "#" ++ toString index
  | none => document.source.text

def fileName (document : Document) : String :=
  let stem := document.source.stem?.getD "schema"
  match document.index with
  | some index => stem ++ "-" ++ toString index ++ ".json"
  | none => stem ++ ".json"

def ofValues (source : Path) : List Json → List Document
  | [value] => [⟨source, none, value⟩]
  | values => values.zipIdx.map fun (value, index) => ⟨source, some index, value⟩

end Document

namespace Settings

def readLines (path : Path) : Nat → List String → Except CommandError (List Json)
  | _, [] => .ok []
  | number, line :: rest =>
    if line.toList.all isBlank then readLines path (number + 1) rest
    else
      match Json.read? line with
      | some value => do return value :: (← readLines path (number + 1) rest)
      | none => .error (.malformedLine path number)

def readValues (settings : Settings) (path : Path) (source : String) :
    Except CommandError (List Json) :=
  if settings.ndjson then readLines path 1 (splitText '\n' source)
  else
    match Json.read? source with
    | some value => .ok [value]
    | none => .error (.malformedSource path)

def select (settings : Settings) (value : Json) : Except CommandError Json :=
  match settings.pointer with
  | none => .ok value
  | some text =>
    match (Pointer.ofText? text).bind (·.select? value) with
    | some selected => .ok selected
    | none => .error (.nothingSelected text)

def loadSource (settings : Settings) (tree : Tree) (path : Path) :
    Except CommandError (List Document) := do
  let source ← (tree.read path).mapError (.unreadableSource path)
  let values ← settings.readValues path source
  return Document.ofValues path (← values.mapM settings.select)

def loadDocuments (settings : Settings) (tree : Tree) : Except CommandError (List Document) := do
  let paths ← (Glob.resolveAll tree settings.inputs).mapError .inputPaths
  return (← paths.mapM (settings.loadSource tree)).flatten

def addMetaschema (tree : Tree) (registry : Registry) (path : Path) :
    Except CommandError Registry := do
  let source ← (tree.read path).mapError (.unreadableMetaschema path)
  match Json.read? source with
  | none => .error (.malformedMetaschema path)
  | some schema =>
    match registry.add? schema with
    | some registry => .ok registry
    | none => .error (.unnamedMetaschema path)

def loadRegistry (settings : Settings) (tree : Tree) : Except CommandError Registry := do
  let paths ← (Glob.resolveAll tree settings.metaschemas).mapError .metaschemaPaths
  paths.foldlM (addMetaschema tree) {}

end Settings

structure Outcome where
  code : Nat
  stdout : String
  stderr : String
  tree : Tree

structure Progress where
  tree : Tree
  stdout : String := ""
  stderr : String := ""
  error : Option CommandError := none

namespace Progress

def outcome (progress : Progress) : Outcome where
  code :=
    match progress.error with
    | none => 0
    | some .crashed => 101
    | some _ => 1
  stdout := progress.stdout
  stderr := progress.stderr ++ (progress.error.map CommandError.report).getD ""
  tree := progress.tree

end Progress

abbrev Output := Document × Json

namespace Output

def toFiles (tree : Tree) (directory : Path) : List Output → Progress
  | [] => { tree }
  | (document, result) :: rest =>
    let target := directory.join document.fileName
    match tree.write target result.pretty with
    | .ok tree => toFiles tree directory rest
    | .error cause => { tree, error := some (.unwritable target cause) }

def toDirectory (tree : Tree) (directory : Path) (outputs : List Output) : Progress :=
  let made := tree.makeDirectories directory.parts
  match made.error with
  | none => toFiles made.tree directory outputs
  | some cause => { tree := made.tree, error := some (.noOutputDirectory directory cause) }

def toFile (tree : Tree) (file : Path) (result : Json) : Progress :=
  let made := tree.makeDirectories ((Path.parentParts? file.parts).getD [])
  match made.error with
  | some cause => { tree := made.tree, error := some (.noParentDirectory cause) }
  | none =>
    match made.tree.write file result.pretty with
    | .ok tree => { tree }
    | .error cause => { tree := made.tree, error := some (.unwritable file cause) }

/-- Results are printed if no place is given for them. A single one goes to the file that is named,
    unless a directory is there; several go to files in a directory. -/
def deliver (tree : Tree) (out : Option Path) (outputs : List Output) : Progress :=
  match out, outputs with
  | none, outputs =>
    { tree, stdout := String.join (outputs.map fun output => output.2.pretty ++ "\n") }
  | some out, [(document, result)] =>
    if tree.isDirectory out then toDirectory tree out [(document, result)]
    else toFile tree out result
  | some out, outputs => toDirectory tree out outputs

end Output

namespace Command

def resultLine (document : Document) : Except Stop Json → String
  | .ok _ => "ok " ++ document.label ++ "\n"
  | .error e => "failed " ++ document.label ++ ": " ++ e.message ++ "\n"

def outputs (results : List (Document × Except Stop Json)) : List Output :=
  results.filterMap fun (document, result) => result.toOption.map (document, ·)

def report (results : List (Document × Except Stop Json)) : String :=
  String.join (results.map fun (document, result) => resultLine document result)

/-- Why nothing comes after a result, unless something does. -/
def interruption? : Except Stop Json → Option CommandError
  | .error .crashed => some .crashed
  | .error .outOfSteps => some .endless
  | _ => none

/-- Reports the results and delivers those that succeeded. Failures count only after delivery. There
    is none after a crash, or after a run that would go on. -/
def finish (tree : Tree) (out : Option Path) (results : List (Document × Except Stop Json)) :
    Progress :=
  match results.findSome? (interruption? ·.2) with
  | some cause =>
    { tree
      stderr := report (results.takeWhile fun result => (interruption? result.2).isNone)
      error := some cause }
  | none =>
    let succeeded := outputs results
    let delivered := Output.deliver tree out succeeded
    let failed := results.length - succeeded.length
    let failure := if failed = 0 then none else some (.failedInputs failed results.length)
    { delivered with
      stderr := report results
      error := delivered.error.or failure }

def transformAll (tree : Tree) (stage : Stage) (settings : Settings) : Progress :=
  let loaded := do return (← settings.loadDocuments tree, ← settings.loadRegistry tree)
  match loaded with
  | .error e => { tree, error := some e }
  | .ok (documents, registry) =>
    let results := documents.map fun document =>
      (document, (stage.run registry.resolver (some settings.defaultDialect) document.value).result)
    finish tree settings.out results

/-- Goes on with the encodings after a number of them, of which some were invalid. -/
def inspectPaths (tree : Tree) : Nat → Nat → List Path → Progress
  | failed, total, [] =>
    { tree, error := if failed = 0 then none else some (.invalidEncodings failed total) }
  | failed, total, path :: rest =>
    match tree.read path with
    | .error cause => { tree, error := some (.unreadableEncoding path cause) }
    | .ok source =>
      match Encoding.ofText source with
      | .ok encoding =>
        let others := inspectPaths tree failed (total + 1) rest
        { others with
          stdout := encoding.document.pretty ++ "\n" ++ others.stdout
          stderr := "ok " ++ path.text ++ " " ++ encoding.kind.name ++ "\n" ++ others.stderr }
      | .error e =>
        let others := inspectPaths tree (failed + 1) (total + 1) rest
        { others with
          stderr := "failed " ++ path.text ++ ": " ++ e.message ++ "\n" ++ others.stderr }

def inspectAll (tree : Tree) (inputs : List String) : Progress :=
  match Glob.resolveAll tree inputs with
  | .error cause => { tree, error := some (.inputPaths cause) }
  | .ok paths => inspectPaths tree 0 0 paths

def run (tree : Tree) : Command → Outcome
  | .version => { code := 0, stdout := "json-binpack 0.1.0\n", stderr := "", tree }
  | .transform stage settings => (transformAll tree stage settings).outcome
  | .inspect inputs => (inspectAll tree inputs).outcome

def runArguments (tree : Tree) (arguments : List String) : Outcome :=
  match ofArguments? arguments with
  | some command => command.run tree
  | none => { code := 2, stdout := "", stderr := "error: invalid arguments\n", tree }

end Command

end SchemaPack
