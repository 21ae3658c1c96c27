namespace SchemaPack

inductive Kind where
  | boundedMultiple8BitsEnumFixed
  | floorMultipleEnumVarint
  | roofMultipleMirrorEnumVarint
  | arbitraryMultipleZigzagVarint
  | doubleVarintTuple
  | byteChoiceIndex
  | largeChoiceIndex
  | topLevelByteChoiceIndex
  | constNone
  | anyPackedTypeTagBytePrefix
  | utf8StringNoLength
  | floorVarintPrefixUtf8StringShared
  | roofVarintPrefixUtf8StringShared
  | bounded8BitPrefixUtf8StringShared
  | rfc3339DateIntegerTriplet
  | prefixVarintLengthStringShared
  | fixedTypedArray
  | bounded8BitsTypedArray
  | floorTypedArray
  | roofTypedArray
  deriving DecidableEq, Repr

inductive OptionType where
  | signed
  | unsigned
  | values
  | value
  | encoding
  | encodings
  deriving DecidableEq, Repr

namespace Kind

def all : List Kind := [
  .boundedMultiple8BitsEnumFixed, .floorMultipleEnumVarint, .roofMultipleMirrorEnumVarint,
  .arbitraryMultipleZigzagVarint, .doubleVarintTuple, .byteChoiceIndex, .largeChoiceIndex,
  .topLevelByteChoiceIndex, .constNone, .anyPackedTypeTagBytePrefix, .utf8StringNoLength,
  .floorVarintPrefixUtf8StringShared, .roofVarintPrefixUtf8StringShared,
  .bounded8BitPrefixUtf8StringShared, .rfc3339DateIntegerTriplet, .prefixVarintLengthStringShared,
  .fixedTypedArray, .bounded8BitsTypedArray, .floorTypedArray, .roofTypedArray]

/-- What a document that is written calls the kind. -/
def name : Kind → String
  | .boundedMultiple8BitsEnumFixed => "BOUNDED_MULTIPLE_8BITS_ENUM_FIXED"
  | .floorMultipleEnumVarint => "FLOOR_MULTIPLE_ENUM_VARINT"
  | .roofMultipleMirrorEnumVarint => "ROOF_MULTIPLE_MIRROR_ENUM_VARINT"
  | .arbitraryMultipleZigzagVarint => "ARBITRARY_MULTIPLE_ZIGZAG_VARINT"
  | .doubleVarintTuple => "DOUBLE_VARINT_TUPLE"
  | .byteChoiceIndex => "BYTE_CHOICE_INDEX"
  | .largeChoiceIndex => "LARGE_CHOICE_INDEX"
  | .topLevelByteChoiceIndex => "TOP_LEVEL_BYTE_CHOICE_INDEX"
  | .constNone => "CONST_NONE"
  | .anyPackedTypeTagBytePrefix => "ANY_PACKED_TYPE_TAG_BYTE_PREFIX"
  | .utf8StringNoLength => "UTF8_STRING_NO_LENGTH"
  | .floorVarintPrefixUtf8StringShared => "FLOOR_VARINT_PREFIX_UTF8_STRING_SHARED"
  | .roofVarintPrefixUtf8StringShared => "ROOF_VARINT_PREFIX_UTF8_STRING_SHARED"
  | .bounded8BitPrefixUtf8StringShared => "BOUNDED_8BIT_PREFIX_UTF8_STRING_SHARED"
  | .rfc3339DateIntegerTriplet => "RFC3339_DATE_INTEGER_TRIPLET"
  | .prefixVarintLengthStringShared => "PREFIX_VARINT_LENGTH_STRING_SHARED"
  | .fixedTypedArray => "FIXED_TYPED_ARRAY"
  | .bounded8BitsTypedArray => "BOUNDED_8BITS_TYPED_ARRAY"
  | .floorTypedArray => "FLOOR_TYPED_ARRAY"
  | .roofTypedArray => "ROOF_TYPED_ARRAY"

/-- What an encoding that is read, or written inside another one, calls its kind. -/
def tag : Kind → String
  | .boundedMultiple8BitsEnumFixed => "BOUNDED_MULTIPLE_8BITS_ENUM_FIXED"
  | .floorMultipleEnumVarint => "FLOOR_MULTIPLE_ENUM_VARINT"
  | .roofMultipleMirrorEnumVarint => "ROOF_MULTIPLE_MIRROR_ENUM_VARINT"
  | .arbitraryMultipleZigzagVarint => "ARBITRARY_MULTIPLE_ZIGZAG_VARINT"
  | .doubleVarintTuple => "DOUBLE_VARINT_TUPLE"
  | .byteChoiceIndex => "BYTE_CHOICE_INDEX"
  | .largeChoiceIndex => "LARGE_CHOICE_INDEX"
  | .topLevelByteChoiceIndex => "TOP_LEVEL_BYTE_CHOICE_INDEX"
  | .constNone => "CONST_NONE"
  | .anyPackedTypeTagBytePrefix => "ANY_PACKED_TYPE_TAG_BYTE_PREFIX"
  | .utf8StringNoLength => "UTF8_STRING_NO_LENGTH"
  | .floorVarintPrefixUtf8StringShared => "FLOOR_VARINT_PREFIX_UTF8_STRING_SHARED"
  | .roofVarintPrefixUtf8StringShared => "ROOF_VARINT_PREFIX_UTF8_STRING_SHARED"
  | .bounded8BitPrefixUtf8StringShared => "BOUNDED_8BIT_PREFIX_UTF8_STRING_SHARED"
  | .rfc3339DateIntegerTriplet => "RFC3339_DATE_INTEGER_TRIPLET"
  | .prefixVarintLengthStringShared => "PREFIX_VARINT_LENGTH_STRING_SHARED"
  | .fixedTypedArray => "FIXED_TYPED_ARRAY"
  | .bounded8BitsTypedArray => "BOUNDED_8BITS_TYPED_ARRAY"
  | .floorTypedArray => "FLOOR_TYPED_ARRAY"
  | .roofTypedArray => "ROOF_TYPED_ARRAY"

def ofTag? (tag : String) : Option Kind := all.find? (·.tag == tag)

/-- The names that a document may call its kind by. -/
def loadable : List String := [
  "BOUNDED_MULTIPLE_8BITS_ENUM_FIXED",
  "FLOOR_MULTIPLE_ENUM_VARINT",
  "ROOF_MULTIPLE_MIRROR_ENUM_VARINT",
  "ARBITRARY_MULTIPLE_ZIGZAG_VARINT",
  "DOUBLE_VARINT_TUPLE",
  "BYTE_CHOICE_INDEX",
  "LARGE_CHOICE_INDEX",
  "TOP_LEVEL_BYTE_CHOICE_INDEX",
  "CONST_NONE",
  "ANY_PACKED_TYPE_TAG_BYTE_PREFIX",
  "UTF8_STRING_NO_LENGTH",
  "FLOOR_VARINT_PREFIX_UTF8_STRING_SHARED",
  "ROOF_VARINT_PREFIX_UTF8_STRING_SHARED",
  "BOUNDED_8BIT_PREFIX_UTF8_STRING_SHARED",
  "RFC3339_DATE_INTEGER_TRIPLET",
  "PREFIX_VARINT_LENGTH_STRING_SHARED",
  "FIXED_TYPED_ARRAY",
  "BOUNDED_8BITS_TYPED_ARRAY",
  "FLOOR_TYPED_ARRAY",
  "ROOF_TYPED_ARRAY"]

/-- What a message about the options of a kind calls them. -/
def label : Kind → String
  | .boundedMultiple8BitsEnumFixed => "Encoding::BoundedMultiple8BitsEnumFixed"
  | .floorMultipleEnumVarint => "Encoding::FloorMultipleEnumVarint"
  | .roofMultipleMirrorEnumVarint => "Encoding::RoofMultipleMirrorEnumVarint"
  | .arbitraryMultipleZigzagVarint => "Encoding::ArbitraryMultipleZigzagVarint"
  | .doubleVarintTuple => "Encoding::DoubleVarintTuple"
  | .byteChoiceIndex => "Encoding::ByteChoiceIndex"
  | .largeChoiceIndex => "Encoding::LargeChoiceIndex"
  | .topLevelByteChoiceIndex => "Encoding::TopLevelByteChoiceIndex"
  | .constNone => "Encoding::ConstNone"
  | .anyPackedTypeTagBytePrefix => "Encoding::AnyPackedTypeTagBytePrefix"
  | .utf8StringNoLength => "Encoding::Utf8StringNoLength"
  | .floorVarintPrefixUtf8StringShared => "Encoding::FloorVarintPrefixUtf8StringShared"
  | .roofVarintPrefixUtf8StringShared => "Encoding::RoofVarintPrefixUtf8StringShared"
  | .bounded8BitPrefixUtf8StringShared => "Encoding::Bounded8BitPrefixUtf8StringShared"
  | .rfc3339DateIntegerTriplet => "Encoding::Rfc3339DateIntegerTriplet"
  | .prefixVarintLengthStringShared => "Encoding::PrefixVarintLengthStringShared"
  | .fixedTypedArray => "Encoding::FixedTypedArray"
  | .bounded8BitsTypedArray => "Encoding::Bounded8BitsTypedArray"
  | .floorTypedArray => "Encoding::FloorTypedArray"
  | .roofTypedArray => "Encoding::RoofTypedArray"

def options : Kind → List (String × OptionType)
  | .boundedMultiple8BitsEnumFixed =>
    [("minimum", .signed), ("maximum", .signed), ("multiplier", .unsigned)]
  | .floorMultipleEnumVarint => [("minimum", .signed), ("multiplier", .unsigned)]
  | .roofMultipleMirrorEnumVarint => [("maximum", .signed), ("multiplier", .unsigned)]
  | .arbitraryMultipleZigzagVarint => [("multiplier", .unsigned)]
  | .doubleVarintTuple | .anyPackedTypeTagBytePrefix | .rfc3339DateIntegerTriplet
  | .prefixVarintLengthStringShared => []
  | .byteChoiceIndex | .largeChoiceIndex | .topLevelByteChoiceIndex => [("choices", .values)]
  | .constNone => [("value", .value)]
  | .utf8StringNoLength => [("size", .unsigned)]
  | .floorVarintPrefixUtf8StringShared => [("minimum", .unsigned)]
  | .roofVarintPrefixUtf8StringShared => [("maximum", .unsigned)]
  | .bounded8BitPrefixUtf8StringShared => [("minimum", .unsigned), ("maximum", .unsigned)]
  | .fixedTypedArray =>
    [("size", .unsigned), ("encoding", .encoding), ("prefixEncodings", .encodings)]
  | .bounded8BitsTypedArray =>
    [("minimum", .unsigned), ("maximum", .unsigned), ("encoding", .encoding),
      ("prefixEncodings", .encodings)]
  | .floorTypedArray =>
    [("minimum", .unsigned), ("encoding", .encoding), ("prefixEncodings", .encodings)]
  | .roofTypedArray =>
    [("maximum", .unsigned), ("encoding", .encoding), ("prefixEncodings", .encodings)]

end Kind

end SchemaPack
