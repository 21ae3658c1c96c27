import SchemaPack.Files.Glob

namespace SchemaPack

inductive CommandError where
  | inputPaths (cause : GlobError)
  | metaschemaPaths (cause : GlobError)
  | unreadableSource (path : Path) (cause : FileError)
  | malformedSource (path : Path)
  | malformedLine (path : Path) (number : Nat)
  | nothingSelected (pointer : String)
  | unreadableMetaschema (path : Path) (cause : FileError)
  | malformedMetaschema (path : Path)
  | unnamedMetaschema (path : Path)
  | unreadableEncoding (path : Path) (cause : FileError)
  | noParentDirectory (cause : FileError)
  | noOutputDirectory (path : Path) (cause : FileError)
  | unwritable (path : Path) (cause : FileError)
  | failedInputs (failed total : Nat)
  | invalidEncodings (failed total : Nat)
  | crashed
  | endless
  deriving DecidableEq, Repr

namespace CommandError

/-- What failed, and after it each cause of what comes before. -/
def messages : CommandError → List String
  | .inputPaths cause => ["failed to resolve input file paths", cause.message]
  | .metaschemaPaths cause => ["failed to resolve metaschema paths", cause.message]
  | .unreadableSource path cause => ["failed to read source file " ++ path.text, cause.message]
  | .malformedSource path => ["failed to parse JSON source file " ++ path.text, "syntax error"]
  | .malformedLine path number =>
    ["failed to parse JSON source file " ++ path.text, "line " ++ toString number, "syntax error"]
  | .nothingSelected pointer => ["JSON pointer " ++ pointer ++ " selects nothing"]
  | .unreadableMetaschema path cause => ["failed to read metaschema " ++ path.text, cause.message]
  | .malformedMetaschema path => ["failed to parse metaschema " ++ path.text, "syntax error"]
  | .unnamedMetaschema path => ["metaschema " ++ path.text ++ " has no $id"]
  | .unreadableEncoding path cause => ["failed to read " ++ path.text, cause.message]
  | .noParentDirectory cause => [cause.message]
  | .noOutputDirectory path cause => ["failed to create " ++ path.text, cause.message]
  | .unwritable path cause => ["failed to write " ++ path.text, cause.message]
  | .failedInputs failed total =>
    [toString failed ++ " of " ++ toString total ++ " inputs failed"]
  | .invalidEncodings failed total =>
    [toString failed ++ " of " ++ toString total ++ " encoding documents are invalid"]
  | .crashed | .endless => []

/-- A text behind a mark, with its further lines aligned to the first. -/
def hang (mark text : String) : String :=
  let indent := String.ofList (List.replicate mark.length ' ')
  mark ++ ("\n" ++ indent).intercalate (splitText '\n' text)

def causeLines : List String → List String
  | [cause] => [hang "    " cause]
  | causes => causes.zipIdx.map fun (cause, index) => hang ("    " ++ toString index ++ ": ") cause

def report (e : CommandError) : String :=
  let lines := match e.messages with
    | [] => []
    | [message] => ["Error: " ++ message]
    | message :: causes => ["Error: " ++ message, "", "Caused by:"] ++ causeLines causes
  String.join (lines.map (· ++ "\n"))

end CommandError

end SchemaPack
