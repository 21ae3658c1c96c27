import SchemaPack.Encoding.Kind
import SchemaPack.Json.Order
import SchemaPack.Schema.Dialect

namespace SchemaPack

inductive Encoding where
  | boundedMultiple8BitsEnumFixed (minimum maximum : Int64) (multiplier : UInt64)
  | floorMultipleEnumVarint (minimum : Int64) (multiplier : UInt64)
  | roofMultipleMirrorEnumVarint (maximum : Int64) (multiplier : UInt64)
  | arbitraryMultipleZigzagVarint (multiplier : UInt64)
  | doubleVarintTuple
  | byteChoiceIndex (choices : List Json)
  | largeChoiceIndex (choices : List Json)
  | topLevelByteChoiceIndex (choices : List Json)
  | constNone (value : Json)
  | anyPackedTypeTagBytePrefix
  | utf8StringNoLength (size : UInt64)
  | floorVarintPrefixUtf8StringShared (minimum : UInt64)
  | roofVarintPrefixUtf8StringShared (maximum : UInt64)
  | bounded8BitPrefixUtf8StringShared (minimum maximum : UInt64)
  | rfc3339DateIntegerTriplet
  | prefixVarintLengthStringShared
  | fixedTypedArray (size : UInt64) (encoding : Encoding) (prefixEncodings : List Encoding)
  | bounded8BitsTypedArray (minimum maximum : UInt64) (encoding : Encoding)
      (prefixEncodings : List Encoding)
  | floorTypedArray (minimum : UInt64) (encoding : Encoding) (prefixEncodings : List Encoding)
  | roofTypedArray (maximum : UInt64) (encoding : Encoding) (prefixEncodings : List Encoding)

namespace Encoding

def kind : Encoding → Kind
  | .boundedMultiple8BitsEnumFixed .. => .boundedMultiple8BitsEnumFixed
  | .floorMultipleEnumVarint .. => .floorMultipleEnumVarint
  | .roofMultipleMirrorEnumVarint .. => .roofMultipleMirrorEnumVarint
  | .arbitraryMultipleZigzagVarint .. => .arbitraryMultipleZigzagVarint
  | .doubleVarintTuple => .doubleVarintTuple
  | .byteChoiceIndex .. => .byteChoiceIndex
  | .largeChoiceIndex .. => .largeChoiceIndex
  | .topLevelByteChoiceIndex .. => .topLevelByteChoiceIndex
  | .constNone .. => .constNone
  | .anyPackedTypeTagBytePrefix => .anyPackedTypeTagBytePrefix
  | .utf8StringNoLength .. => .utf8StringNoLength
  | .floorVarintPrefixUtf8StringShared .. => .floorVarintPrefixUtf8StringShared
  | .roofVarintPrefixUtf8StringShared .. => .roofVarintPrefixUtf8StringShared
  | .bounded8BitPrefixUtf8StringShared .. => .bounded8BitPrefixUtf8StringShared
  | .rfc3339DateIntegerTriplet => .rfc3339DateIntegerTriplet
  | .prefixVarintLengthStringShared => .prefixVarintLengthStringShared
  | .fixedTypedArray .. => .fixedTypedArray
  | .bounded8BitsTypedArray .. => .bounded8BitsTypedArray
  | .floorTypedArray .. => .floorTypedArray
  | .roofTypedArray .. => .roofTypedArray

def metaschemaId : String := "https://jsonbinpack.sourcemeta.com/schemas/encoding/v1.json"

def wrap (name : String) (options : Json) : Json := .object [
  ("$schema", .string metaschemaId),
  ("name", .string name),
  ("options", options)]

def nest (kind : Kind) (options : Members) : Json := .object [
  ("name", .string kind.tag),
  ("options", .object options)]

def signed (n : Int64) : Json := .number (.ofInt64 n)

def unsigned (n : UInt64) : Json := .number (.ofUInt64 n)

mutual

def options : Encoding → Members
  | .boundedMultiple8BitsEnumFixed minimum maximum multiplier =>
    [("minimum", signed minimum), ("maximum", signed maximum), ("multiplier", unsigned multiplier)]
  | .floorMultipleEnumVarint minimum multiplier =>
    [("minimum", signed minimum), ("multiplier", unsigned multiplier)]
  | .roofMultipleMirrorEnumVarint maximum multiplier =>
    [("maximum", signed maximum), ("multiplier", unsigned multiplier)]
  | .arbitraryMultipleZigzagVarint multiplier => [("multiplier", unsigned multiplier)]
  | .doubleVarintTuple => []
  | .byteChoiceIndex choices => [("choices", .array choices)]
  | .largeChoiceIndex choices => [("choices", .array choices)]
  | .topLevelByteChoiceIndex choices => [("choices", .array choices)]
  | .constNone value => [("value", value)]
  | .anyPackedTypeTagBytePrefix => []
  | .utf8StringNoLength size => [("size", unsigned size)]
  | .floorVarintPrefixUtf8StringShared minimum => [("minimum", unsigned minimum)]
  | .roofVarintPrefixUtf8StringShared maximum => [("maximum", unsigned maximum)]
  | .bounded8BitPrefixUtf8StringShared minimum maximum =>
    [("minimum", unsigned minimum), ("maximum", unsigned maximum)]
  | .rfc3339DateIntegerTriplet => []
  | .prefixVarintLengthStringShared => []
  | .fixedTypedArray size encoding prefixEncodings =>
    [("size", unsigned size), ("encoding", nest encoding.kind (options encoding)),
      ("prefixEncodings", .array (nodes prefixEncodings))]
  | .bounded8BitsTypedArray minimum maximum encoding prefixEncodings =>
    [("minimum", unsigned minimum), ("maximum", unsigned maximum),
      ("encoding", nest encoding.kind (options encoding)),
      ("prefixEncodings", .array (nodes prefixEncodings))]
  | .floorTypedArray minimum encoding prefixEncodings =>
    [("minimum", unsigned minimum), ("encoding", nest encoding.kind (options encoding)),
      ("prefixEncodings", .array (nodes prefixEncodings))]
  | .roofTypedArray maximum encoding prefixEncodings =>
    [("maximum", unsigned maximum), ("encoding", nest encoding.kind (options encoding)),
      ("prefixEncodings", .array (nodes prefixEncodings))]

def nodes : List Encoding → List Json
  | [] => []
  | encoding :: rest => nest encoding.kind (options encoding) :: nodes rest

end

def document (encoding : Encoding) : Json := wrap encoding.kind.name (.object encoding.options)

/-- Equality up to the order of members in the values that an encoding lists. -/
def same (a b : Encoding) : Bool := a.document.same b.document

/-- Encodings have the core vocabulary only, so that no rule on schemas touches them. -/
def metaschema : Json := .object [
  ("$id", .string metaschemaId),
  ("$schema", .string Dialect.draft202012),
  ("$vocabulary", .object [(Vocabulary.core, .bool true)]),
  ("type", .string "object"),
  ("required", .array [.string "name", .string "options"]),
  ("properties", .object [
    ("name", .object [("type", .string "string")]),
    ("options", .object [("type", .string "object")])])]

def resolver (inner : Resolver) : Resolver := fun id =>
  if normalizeId id = metaschemaId then .ok (some metaschema) else inner id

def isEncoding (dialect : String) (node : Json) : Bool :=
  dialect == metaschemaId && node.contains "name" && node.contains "options"

end Encoding

end SchemaPack
