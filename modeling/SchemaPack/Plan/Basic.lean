import SchemaPack.Encoding.Basic
import SchemaPack.Rules.Basic
import SchemaPack.Schema.Node

namespace SchemaPack

/-- Planning replaces 2020-12 schemas that are validated and no encodings yet. -/
def isPlannable (node : Json) (context : Context) : Bool :=
  context.baseDialect == Dialect.draft202012 && context.has Vocabulary.validation &&
    !Encoding.isEncoding context.dialect node

namespace Choices

def byteChoices : Nat := 256

def count? (node : Json) (context : Context) : Option Nat :=
  if isPlannable node context then (node.arrayAt? "enum").map (·.length) else none

def replace (node : Json) (name : String) : Json :=
  match node.arrayAt? "enum" with
  | some choices => Encoding.wrap name (.object [("choices", .array choices)])
  | none => node

def single : Rule where
  name := "enum_singleton"
  condition node context := count? node context == some 1
  transform node :=
    match node.arrayAt? "enum" with
    | some (value :: _) => Encoding.wrap "CONST_NONE" (.object [("value", value)])
    | _ => node

def fitsByte (n : Nat) : Bool := 2 ≤ n && n ≤ byteChoices

def byteAtRoot : Rule where
  name := "enum_8_bit_top_level"
  condition node context := context.pointer.isRoot && (count? node context).any fitsByte
  transform node := replace node "TOP_LEVEL_BYTE_CHOICE_INDEX"

def byte : Rule where
  name := "enum_8_bit"
  condition node context := !context.pointer.isRoot && (count? node context).any fitsByte
  transform node := replace node "BYTE_CHOICE_INDEX"

def large : Rule where
  name := "enum_arbitrary"
  condition node context := (count? node context).any fun n => byteChoices < n
  transform node := replace node "LARGE_CHOICE_INDEX"

/-- Listed values are written as an index into their list. -/
def rules : List Rule := [single, byteAtRoot, byte, large]

end Choices

namespace Reals

/-- Reals have one encoding, whatever their bounds. -/
def anyNumber : Rule where
  name := "number_arbitrary"
  condition node context :=
    isPlannable node context && node.hasType .number && !node.contains "enum"
  transform _ := Encoding.wrap "DOUBLE_VARINT_TUPLE" .emptyObject

def rules : List Rule := [anyNumber]

end Reals

end SchemaPack
