namespace SchemaPack

/-- Why a schema could not be compiled, or an encoding not be read. Malformed keywords are no
    failure: the rules pass them over. -/
inductive Failure where
  | unsupportedDialect (base : String)
  | unknownDialect
  | unresolvedMetaschema (id : String)
  | resolver (id message : String)
  | unrecognizedEncoding (name : String)
  | invalidEncoding (path message : String)
  deriving DecidableEq, Repr

def Failure.message : Failure → String
  | .unsupportedDialect base =>
    "Only JSON Schema 2020-12 is supported (base dialect is " ++ base ++ ")"
  | .unknownDialect => "could not determine the dialect of the schema"
  | .unresolvedMetaschema id => "could not resolve the metaschema " ++ id
  | .resolver id message => "resolver failed for " ++ id ++ ": " ++ message
  | .unrecognizedEncoding name => "Unrecognized encoding: " ++ name
  | .invalidEncoding path message => "invalid encoding at " ++ path ++ ": " ++ message

/-- How a run ends without a result. A crash ends the program, and a run that is out of steps would
    go on. -/
inductive Stop where
  | failed (failure : Failure)
  | crashed
  | outOfSteps
  deriving DecidableEq, Repr

def Stop.message : Stop → String
  | .failed failure => failure.message
  | .crashed => "the schema crashes the program"
  | .outOfSteps => "the schema takes too many steps"

end SchemaPack
