import SchemaPack.Encoding.Basic
import SchemaPack.Json.Reader
import SchemaPack.Number.Decimal
import SchemaPack.Text.Invisible

namespace SchemaPack

inductive Mismatch where
  | missing (field : String)
  | wrongType (found : Json) (wanted : String)
  | outOfRange (found : Int) (wanted : String)
  | notOneKey
  | unknownKind (name : String)
  | wrongLength (length : Nat) (wanted : String)

namespace Mismatch

def describe : Json → String
  | .null => "null"
  | .bool value => "boolean `" ++ (if value then "true" else "false") ++ "`"
  | .number (.integer n _) => "integer `" ++ toString n ++ "`"
  | .number (.real x) => "floating point `" ++ x.render ++ "`"
  | .string text => "string " ++ quoteVisibly text
  | .array _ => "sequence"
  | .object _ => "map"

def kindNames : String := ", ".intercalate (Kind.all.map fun kind => "`" ++ kind.tag ++ "`")

def message : Mismatch → String
  | .missing field => "missing field `" ++ field ++ "`"
  | .wrongType found wanted => "invalid type: " ++ describe found ++ ", expected " ++ wanted
  | .outOfRange found wanted =>
    "invalid value: integer `" ++ toString found ++ "`, expected " ++ wanted
  | .notOneKey => "invalid value: map, expected map with a single key"
  | .unknownKind name => "unknown variant `" ++ name ++ "`, expected one of " ++ kindNames
  | .wrongLength length wanted =>
    "invalid length " ++ toString length ++ ", expected " ++ wanted

end Mismatch

structure Misread where
  path : List Segment := []
  mismatch : Mismatch

namespace Misread

def toFailure (e : Misread) : Failure := .invalidEncoding (pathText e.path) e.mismatch.message

end Misread

/-- Whether an encoding is read as it stands or after its document was set aside, which happens to
    options that come before the name of their encoding. -/
inductive ReadingMode where
  | direct
  | deferred
  deriving DecidableEq, Repr

inductive OptionValue where
  | signed (n : Int64)
  | unsigned (n : UInt64)
  | values (values : List Json)
  | value (value : Json)
  | encoding (encoding : Encoding)
  | encodings (encodings : List Encoding)

namespace Encoding

def mismatch {α : Type} (mismatch : Mismatch) : Except Misread α := .error { mismatch }

/-- Misreadings of a part are misreadings under the segment that leads to it. -/
def inside {α : Type} (segment : Segment) (result : Except Misread α) : Except Misread α :=
  result.mapError fun e => { e with path := segment :: e.path }

/-- Options that were set aside have lost their place: what is wrong inside is reported for the
    encoding as a whole. -/
def inMode {α : Type} (mode : ReadingMode) (result : Except Misread α) : Except Misread α :=
  match mode with
  | .direct => result
  | .deferred => result.mapError fun e => { e with path := [] }

def readKindName (name : String) : Except Misread Kind :=
  match Kind.ofTag? name with
  | some kind => .ok kind
  | none => mismatch (.unknownKind name)

/-- What may stand for the value of a kind that is spelled as the key of a map. -/
def isUnit (mode : ReadingMode) : Json → Bool
  | .null => true
  | .object [] => mode == .deferred
  | _ => false

def readKind (mode : ReadingMode) : Json → Except Misread Kind
  | .string name => readKindName name
  | .object [(name, value)] => do
    let kind ← readKindName name
    if isUnit mode value then .ok kind
    else inside (.member name) (mismatch (.wrongType value "unit"))
  | .object _ => mismatch .notOneKey
  | other => mismatch (.wrongType other "string or map")

/-- The first item of an encoding that is spelled as an array. Once set aside, a number can stand
    for a kind. -/
def readKindItem (mode : ReadingMode) : Json → Except Misread Kind
  | .string name => readKindName name
  | other =>
    match mode, other with
    | .deferred, .number (.integer n _) =>
      if n < 0 then mismatch (.wrongType other "variant identifier")
      else
        match Kind.all[n.toNat]? with
        | some kind => .ok kind
        | none => mismatch (.outOfRange n "variant index 0 <= i < 20")
    | _, _ => mismatch (.wrongType other "variant identifier")

def readSigned : Json → Except Misread Int64
  | .number (.integer n _) =>
    match word? n with
    | some n => .ok n
    | none => mismatch (.outOfRange n "i64")
  | other => mismatch (.wrongType other "i64")

def readUnsigned : Json → Except Misread UInt64
  | .number (.integer n _) =>
    if n < 0 then mismatch (.outOfRange n "u64") else .ok (UInt64.ofNat n.toNat)
  | other => mismatch (.wrongType other "u64")

def readArray : Json → Except Misread (List Json)
  | .array items => .ok items
  | other => mismatch (.wrongType other "a sequence")

def firstMissing? (kind : Kind) (read : List (String × OptionValue)) : Option String :=
  (kind.options.map (·.1)).find? fun name => !read.any (·.1 == name)

def ofOptions? (kind : Kind) (read : List (String × OptionValue)) : Option Encoding :=
  match kind, kind.options.filterMap fun option => read.lookup option.1 with
  | .boundedMultiple8BitsEnumFixed, [.signed minimum, .signed maximum, .unsigned multiplier] =>
    some (.boundedMultiple8BitsEnumFixed minimum maximum multiplier)
  | .floorMultipleEnumVarint, [.signed minimum, .unsigned multiplier] =>
    some (.floorMultipleEnumVarint minimum multiplier)
  | .roofMultipleMirrorEnumVarint, [.signed maximum, .unsigned multiplier] =>
    some (.roofMultipleMirrorEnumVarint maximum multiplier)
  | .arbitraryMultipleZigzagVarint, [.unsigned multiplier] =>
    some (.arbitraryMultipleZigzagVarint multiplier)
  | .doubleVarintTuple, [] => some .doubleVarintTuple
  | .byteChoiceIndex, [.values choices] => some (.byteChoiceIndex choices)
  | .largeChoiceIndex, [.values choices] => some (.largeChoiceIndex choices)
  | .topLevelByteChoiceIndex, [.values choices] => some (.topLevelByteChoiceIndex choices)
  | .constNone, [.value value] => some (.constNone value)
  | .anyPackedTypeTagBytePrefix, [] => some .anyPackedTypeTagBytePrefix
  | .utf8StringNoLength, [.unsigned size] => some (.utf8StringNoLength size)
  | .floorVarintPrefixUtf8StringShared, [.unsigned minimum] =>
    some (.floorVarintPrefixUtf8StringShared minimum)
  | .roofVarintPrefixUtf8StringShared, [.unsigned maximum] =>
    some (.roofVarintPrefixUtf8StringShared maximum)
  | .bounded8BitPrefixUtf8StringShared, [.unsigned minimum, .unsigned maximum] =>
    some (.bounded8BitPrefixUtf8StringShared minimum maximum)
  | .rfc3339DateIntegerTriplet, [] => some .rfc3339DateIntegerTriplet
  | .prefixVarintLengthStringShared, [] => some .prefixVarintLengthStringShared
  | .fixedTypedArray, [.unsigned size, .encoding encoding, .encodings prefixEncodings] =>
    some (.fixedTypedArray size encoding prefixEncodings)
  | .bounded8BitsTypedArray,
      [.unsigned minimum, .unsigned maximum, .encoding encoding, .encodings prefixEncodings] =>
    some (.bounded8BitsTypedArray minimum maximum encoding prefixEncodings)
  | .floorTypedArray, [.unsigned minimum, .encoding encoding, .encodings prefixEncodings] =>
    some (.floorTypedArray minimum encoding prefixEncodings)
  | .roofTypedArray, [.unsigned maximum, .encoding encoding, .encodings prefixEncodings] =>
    some (.roofTypedArray maximum encoding prefixEncodings)
  | _, _ => none

def optionsFirst (members : Members) : Bool :=
  members.find? (fun entry => entry.1 == "name" || entry.1 == "options") |>.any (·.1 == "options")

mutual

def readNode (mode : ReadingMode) : Json → Except Misread Encoding
  | .object members => do
    match Members.get? members "name" with
    | none => mismatch (.missing "name")
    | some name =>
      let kind ← inside (.member "name") (readKind mode name)
      let inner := if optionsFirst members then ReadingMode.deferred else mode
      inMode inner (readOptionsOf inner kind members)
  | .array [] => mismatch (.wrongLength 0 "adjacently tagged enum Encoding")
  | .array (name :: rest) => do
    let kind ← inside (.index 0) (readKindItem mode name)
    match rest with
    | [] => mismatch (.wrongLength 1 "adjacently tagged enum Encoding")
    | value :: rest =>
      let encoding ← inside (.index 1) (readOptions mode kind value)
      if rest.isEmpty then .ok encoding
      else
        mismatch (.wrongLength (rest.length + 2) (match mode with
          | .direct => "fewer elements in array"
          | .deferred => "2 elements in sequence"))
  | other => mismatch (.wrongType other "adjacently tagged enum Encoding")

def readOptionsOf (mode : ReadingMode) (kind : Kind) :
    List (String × Json) → Except Misread Encoding
  | [] => mismatch (.missing "options")
  | (name, value) :: rest =>
    if name = "options" then inside (.member "options") (readOptions mode kind value)
    else readOptionsOf mode kind rest

def readOptions (mode : ReadingMode) (kind : Kind) : Json → Except Misread Encoding
  | .object members => do
    let read ← readFields mode kind members
    match firstMissing? kind read, ofOptions? kind read with
    | none, some encoding => .ok encoding
    | name, _ => mismatch (.missing (name.getD ""))
  | other => mismatch (.wrongType other ("struct variant " ++ kind.label))

/-- Reads options in the order of the document and passes over unknown ones. -/
def readFields (mode : ReadingMode) (kind : Kind) :
    List (String × Json) → Except Misread (List (String × OptionValue))
  | [] => .ok []
  | (name, value) :: rest => do
    match kind.options.lookup name with
    | none => readFields mode kind rest
    | some type =>
      let read ← inside (.member name) (match type with
        | .signed => OptionValue.signed <$> readSigned value
        | .unsigned => .unsigned <$> readUnsigned value
        | .values => .values <$> readArray value
        | .value => .ok (.value value)
        | .encoding => .encoding <$> readNode mode value
        | .encodings =>
          match value with
          | .array items => .encodings <$> readNodes mode 0 items
          | other => mismatch (.wrongType other "a sequence"))
      let others ← readFields mode kind rest
      .ok ((name, read) :: others)

def readNodes (mode : ReadingMode) (index : Nat) : List Json → Except Misread (List Encoding)
  | [] => .ok []
  | item :: rest => do
    let encoding ← inside (.index index) (readNode mode item)
    let encodings ← readNodes mode (index + 1) rest
    .ok (encoding :: encodings)

end

def ofNode (node : Json) : Except Failure Encoding :=
  match (node.get? "name").bind (·.string?) with
  | none => .error (.invalidEncoding "name" "missing encoding name")
  | some name =>
    if Kind.loadable.contains name then (readNode .direct node).mapError (·.toFailure)
    else .error (.unrecognizedEncoding name)

def ofDocument (document : Json) : Except Failure Encoding :=
  if (Dialect.declared? document).map normalizeId = some metaschemaId then ofNode document
  else .error (.invalidEncoding "$schema" ("expected " ++ metaschemaId))

def ofText (source : String) : Except Failure Encoding :=
  match Json.readFirst source with
  | .ok document => ofDocument document
  | .error e => .error (.invalidEncoding (pathText e.path) "syntax error")

end Encoding

end SchemaPack
