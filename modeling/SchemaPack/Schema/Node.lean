import SchemaPack.Json.InstanceType

namespace SchemaPack

namespace Json

def numberAt? (node : Json) (keyword : String) : Option Number :=
  (node.get? keyword).bind (·.number?)

def arrayAt? (node : Json) (keyword : String) : Option (List Json) :=
  (node.get? keyword).bind (·.items?)

def objectAt? (node : Json) (keyword : String) : Option Members :=
  (node.get? keyword).bind (·.members?)

def declaredType? (node : Json) : Option InstanceType :=
  ((node.get? "type").bind (·.string?)).bind InstanceType.ofName?

def hasType (node : Json) (type : InstanceType) : Bool := node.declaredType? == some type

def absentOrZero (node : Json) (keyword : String) : Bool :=
  match node.get? keyword with
  | none => true
  | some value => value.number?.any (·.isZero)

def zeroAt (node : Json) (keyword : String) : Bool := (node.numberAt? keyword).any (·.isZero)

def atMost (node : Json) (keyword : String) (limit : Int) : Bool :=
  (node.numberAt? keyword).any fun value =>
    value.isIntegral && (value.toInt64? .down).any fun n => n.toInt ≤ limit

end Json

end SchemaPack
