import SchemaPack.Json.Basic

namespace SchemaPack

inductive InstanceType where
  | null
  | boolean
  | integer
  | number
  | string
  | array
  | object
  deriving DecidableEq, Repr

namespace InstanceType

/-- Every type, in the order in which an unconstrained schema is split. -/
def all : List InstanceType := [.null, .boolean, .object, .array, .string, .number, .integer]

def name : InstanceType → String
  | .null => "null"
  | .boolean => "boolean"
  | .integer => "integer"
  | .number => "number"
  | .string => "string"
  | .array => "array"
  | .object => "object"

def ofName? (name : String) : Option InstanceType := all.find? (·.name == name)

/-- What constrains numbers constrains integers too. -/
def widen : InstanceType → InstanceType
  | .integer => .number
  | other => other

end InstanceType

namespace Json

def isIntegral : Json → Bool
  | .number value => value.isIntegral
  | _ => false

/-- The narrowest type of a value: `2.0` is an integer. -/
def typeOf : Json → InstanceType
  | .null => .null
  | .bool _ => .boolean
  | .number value => if value.isIntegral then .integer else .number
  | .string _ => .string
  | .array _ => .array
  | .object _ => .object

def isInstanceOf (value : Json) : InstanceType → Bool
  | .integer => value.isIntegral
  | .number => value.number?.isSome
  | other => value.typeOf == other

end Json

end SchemaPack
