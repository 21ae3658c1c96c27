import SchemaPack.Encoding.Reader
import SchemaPack.Proofs.Encoding.Dialect
import SchemaPack.Proofs.Encoding.Domain
import SchemaPack.Proofs.Json.Members

namespace SchemaPack

namespace Kind

theorem name_mem_loadable (kind : Kind) : kind.name ∈ loadable := by
  cases kind <;> decide

end Kind

namespace OptionValue

def type : OptionValue → OptionType
  | .signed _ => .signed
  | .unsigned _ => .unsigned
  | .values _ => .values
  | .value _ => .value
  | .encoding _ => .encoding
  | .encodings _ => .encodings

def written : OptionValue → Json
  | .signed n => Encoding.signed n
  | .unsigned n => Encoding.unsigned n
  | .values items => .array items
  | .value item => item
  | .encoding inner => Encoding.nest inner.kind inner.options
  | .encodings inner => .array (Encoding.nodes inner)

end OptionValue

namespace Encoding

def readOption (mode : ReadingMode) (type : OptionType) (value : Json) :
    Except Misread OptionValue :=
  match type with
  | .signed => OptionValue.signed <$> readSigned value
  | .unsigned => .unsigned <$> readUnsigned value
  | .values => .values <$> readArray value
  | .value => .ok (.value value)
  | .encoding => .encoding <$> readNode mode value
  | .encodings =>
    match value with
    | .array items => .encodings <$> readNodes mode 0 items
    | other => mismatch (.wrongType other "a sequence")

theorem readFields_cons {mode : ReadingMode} {kind : Kind} {name : String} {type : OptionType}
    (known : kind.options.lookup name = some type) (value : Json) (rest : Members) :
    readFields mode kind ((name, value) :: rest) = (do
      let read ← inside (.member name) (readOption mode type value)
      let others ← readFields mode kind rest
      .ok ((name, read) :: others)) := by
  conv => lhs; unfold readFields
  rw [known]
  rfl

def fields : Encoding → List (String × OptionValue)
  | .boundedMultiple8BitsEnumFixed minimum maximum multiplier =>
    [("minimum", .signed minimum), ("maximum", .signed maximum),
      ("multiplier", .unsigned multiplier)]
  | .floorMultipleEnumVarint minimum multiplier =>
    [("minimum", .signed minimum), ("multiplier", .unsigned multiplier)]
  | .roofMultipleMirrorEnumVarint maximum multiplier =>
    [("maximum", .signed maximum), ("multiplier", .unsigned multiplier)]
  | .arbitraryMultipleZigzagVarint multiplier => [("multiplier", .unsigned multiplier)]
  | .doubleVarintTuple | .anyPackedTypeTagBytePrefix | .rfc3339DateIntegerTriplet
  | .prefixVarintLengthStringShared => []
  | .byteChoiceIndex choices | .largeChoiceIndex choices | .topLevelByteChoiceIndex choices =>
    [("choices", .values choices)]
  | .constNone value => [("value", .value value)]
  | .utf8StringNoLength size => [("size", .unsigned size)]
  | .floorVarintPrefixUtf8StringShared minimum => [("minimum", .unsigned minimum)]
  | .roofVarintPrefixUtf8StringShared maximum => [("maximum", .unsigned maximum)]
  | .bounded8BitPrefixUtf8StringShared minimum maximum =>
    [("minimum", .unsigned minimum), ("maximum", .unsigned maximum)]
  | .fixedTypedArray size encoding prefixEncodings =>
    [("size", .unsigned size), ("encoding", .encoding encoding),
      ("prefixEncodings", .encodings prefixEncodings)]
  | .bounded8BitsTypedArray minimum maximum encoding prefixEncodings =>
    [("minimum", .unsigned minimum), ("maximum", .unsigned maximum),
      ("encoding", .encoding encoding), ("prefixEncodings", .encodings prefixEncodings)]
  | .floorTypedArray minimum encoding prefixEncodings =>
    [("minimum", .unsigned minimum), ("encoding", .encoding encoding),
      ("prefixEncodings", .encodings prefixEncodings)]
  | .roofTypedArray maximum encoding prefixEncodings =>
    [("maximum", .unsigned maximum), ("encoding", .encoding encoding),
      ("prefixEncodings", .encodings prefixEncodings)]

theorem options_eq (encoding : Encoding) :
    encoding.options = encoding.fields.map fun field => (field.1, field.2.written) := by
  cases encoding <;> rfl

theorem lookup_fields (encoding : Encoding) :
    ∀ field ∈ encoding.fields, encoding.kind.options.lookup field.1 = some field.2.type := by
  cases encoding <;> simp [fields, kind, Kind.options, OptionValue.type, List.lookup_cons]

theorem firstMissing?_fields (encoding : Encoding) :
    firstMissing? encoding.kind encoding.fields = none := by
  cases encoding <;> rfl

theorem ofOptions?_fields (encoding : Encoding) :
    ofOptions? encoding.kind encoding.fields = some encoding := by
  cases encoding <;> rfl

end Encoding

/-- An option that is read as it was written. -/
def OptionValue.ReadsBack (mode : ReadingMode) (value : OptionValue) : Prop :=
  Encoding.readOption mode value.type value.written = .ok value

namespace Encoding

open OptionValue (ReadsBack)

@[simp] theorem signed_readsBack (mode : ReadingMode) (n : Int64) :
    ReadsBack mode (.signed n) := by
  have read : readSigned (signed n) = .ok n := by
    simp only [signed, Number.ofInt64, readSigned, word?_toInt]
  simp only [ReadsBack, OptionValue.type, OptionValue.written, readOption, read]
  rfl

@[simp] theorem unsigned_readsBack (mode : ReadingMode) (n : UInt64) :
    ReadsBack mode (.unsigned n) := by
  have read : readUnsigned (unsigned n) = .ok n := by
    have positive : ¬ (n.toNat : Int) < 0 := by omega
    simp only [unsigned, Number.ofUInt64, readUnsigned, if_neg positive, Int.toNat_natCast,
      UInt64.ofNat_toNat]
  simp only [ReadsBack, OptionValue.type, OptionValue.written, readOption, read]
  rfl

@[simp] theorem values_readsBack (mode : ReadingMode) (values : List Json) :
    ReadsBack mode (.values values) := rfl

@[simp] theorem value_readsBack (mode : ReadingMode) (value : Json) :
    ReadsBack mode (.value value) := rfl

theorem readFields_written {mode : ReadingMode} {kind : Kind} {fields : List (String × OptionValue)}
    (known : ∀ field ∈ fields, kind.options.lookup field.1 = some field.2.type)
    (readsBack : ∀ field ∈ fields, field.2.ReadsBack mode) :
    readFields mode kind (fields.map fun field => (field.1, field.2.written)) = .ok fields := by
  induction fields with
  | nil => rfl
  | cons field rest ih =>
    rw [List.forall_mem_cons] at known readsBack
    rw [List.map_cons, readFields_cons known.1, readsBack.1, ih known.2 readsBack.2]
    rfl

theorem readOptions_options {mode : ReadingMode} {encoding : Encoding}
    (readsBack : ∀ field ∈ encoding.fields, field.2.ReadsBack mode) :
    readOptions mode encoding.kind (.object encoding.options) = .ok encoding := by
  have read := readFields_written encoding.lookup_fields readsBack
  rw [readOptions, options_eq, read]
  dsimp only [bind, Except.bind]
  rw [firstMissing?_fields, ofOptions?_fields]

theorem readOptionsOf_get? {mode : ReadingMode} {kind : Kind} {members : Members} {options : Json}
    {encoding : Encoding} (found : members.get? "options" = some options)
    (read : readOptions mode kind options = .ok encoding) :
    readOptionsOf mode kind members = .ok encoding := by
  induction members with
  | nil => cases found
  | cons entry rest ih =>
    obtain ⟨name, value⟩ := entry
    rw [Members.get?_cons] at found
    rw [readOptionsOf]
    by_cases here : name = "options"
    · rw [if_pos here] at found ⊢
      cases found
      rw [read]
      rfl
    · rw [if_neg here] at found ⊢
      exact ih found

theorem readNode_object {mode : ReadingMode} {members : Members} {encoding : Encoding}
    (name : members.get? "name" = some (.string encoding.kind.name))
    (options : members.get? "options" = some (.object encoding.options))
    (read : ∀ mode, readOptions mode encoding.kind (.object encoding.options) = .ok encoding) :
    readNode mode (.object members) = .ok encoding := by
  have known : readKind mode (.string encoding.kind.name) = .ok encoding.kind := by
    simp only [readKind, readKindName, Kind.ofTag?_name]
  have inner : ∀ inner, inMode inner (readOptionsOf inner encoding.kind members) = .ok encoding := by
    intro inner
    rw [readOptionsOf_get? options (read inner)]
    cases inner <;> rfl
  rw [readNode, name]
  dsimp only
  rw [known]
  exact inner _

theorem readNode_nest {mode : ReadingMode} {encoding : Encoding}
    (read : ∀ mode, readOptions mode encoding.kind (.object encoding.options) = .ok encoding) :
    readNode mode (nest encoding.kind encoding.options) = .ok encoding := by
  refine readNode_object ?_ rfl read
  rw [Members.get?_cons, if_pos rfl, Kind.tag_eq_name]

-- The induction is on the encoding: its options are read back since those of the encodings inside
-- it are.
mutual

theorem fields_readBack : (encoding : Encoding) → (mode : ReadingMode) →
    ∀ field ∈ encoding.fields, field.2.ReadsBack mode
  | .fixedTypedArray _ encoding prefixEncodings, mode
  | .bounded8BitsTypedArray _ _ encoding prefixEncodings, mode
  | .floorTypedArray _ encoding prefixEncodings, mode
  | .roofTypedArray _ encoding prefixEncodings, mode => by
    have one : ReadsBack mode (.encoding encoding) := by
      have read := @readNode_nest mode encoding fun mode =>
        readOptions_options (fields_readBack encoding mode)
      simp only [ReadsBack, OptionValue.type, OptionValue.written, readOption, read]
      rfl
    have many : ReadsBack mode (.encodings prefixEncodings) := by
      have read := nodes_readBack prefixEncodings mode 0
      simp only [ReadsBack, OptionValue.type, OptionValue.written, readOption, read]
      rfl
    simp [fields, one, many]
  | .boundedMultiple8BitsEnumFixed .., mode | .floorMultipleEnumVarint .., mode
  | .roofMultipleMirrorEnumVarint .., mode | .arbitraryMultipleZigzagVarint _, mode
  | .doubleVarintTuple, mode | .byteChoiceIndex _, mode | .largeChoiceIndex _, mode
  | .topLevelByteChoiceIndex _, mode | .constNone _, mode | .anyPackedTypeTagBytePrefix, mode
  | .utf8StringNoLength _, mode | .floorVarintPrefixUtf8StringShared _, mode
  | .roofVarintPrefixUtf8StringShared _, mode | .bounded8BitPrefixUtf8StringShared .., mode
  | .rfc3339DateIntegerTriplet, mode | .prefixVarintLengthStringShared, mode => by
    simp [fields]

theorem nodes_readBack : (encodings : List Encoding) → (mode : ReadingMode) → (index : Nat) →
    readNodes mode index (nodes encodings) = .ok encodings
  | [], _, _ => rfl
  | encoding :: rest, mode, index => by
    have first := @readNode_nest mode encoding fun mode =>
      readOptions_options (fields_readBack encoding mode)
    have later := nodes_readBack rest mode (index + 1)
    rw [nodes, readNodes, first, later]
    rfl

end

/-- A node is an encoding by its name and its options alone. -/
theorem ofNode_eq_ok {node : Json} {encoding : Encoding}
    (name : node.get? "name" = some (.string encoding.kind.name))
    (options : node.get? "options" = some (.object encoding.options)) :
    ofNode node = .ok encoding := by
  obtain ⟨members, rfl⟩ := Json.eq_object_of_get? (by rw [name]; rfl)
  have loadable : Kind.loadable.contains encoding.kind.name = true :=
    List.contains_iff_mem.mpr encoding.kind.name_mem_loadable
  have read := @readNode_object .direct members encoding name options fun mode =>
    readOptions_options (fields_readBack encoding mode)
  unfold ofNode
  rw [name]
  dsimp only [Option.bind, Json.string?]
  rw [if_pos loadable, read]
  rfl

theorem ofDocument_document (encoding : Encoding) :
    ofDocument encoding.document = .ok encoding := by
  have declared : (Dialect.declared? encoding.document).map normalizeId = some metaschemaId :=
    congrArg some normalizeId_metaschemaId
  rw [ofDocument, if_pos declared]
  exact ofNode_eq_ok rfl rfl

/-- Encodings are written as they are read: the document of an encoding is read as this encoding,
    also when it declares no dialect or another one, and any document that is read as the encoding
    is written in this one form. -/
theorem document_roundTrip (encoding : Encoding) :
    ofDocument encoding.document = .ok encoding ∧
      ofNode (encoding.document.erase "$schema") = .ok encoding ∧
      (∀ schema, ofNode (encoding.document.insert "$schema" schema) = .ok encoding) ∧
      ∀ source, ofDocument source = .ok encoding →
        ofDocument encoding.document = ofDocument source ∧
          (ofDocument encoding.document).map document = .ok encoding.document := by
  refine ⟨ofDocument_document encoding, ?_, ?_, ?_⟩
  · refine ofNode_eq_ok ?_ ?_ <;> rw [Json.get?_erase_ne _ (by decide)] <;> rfl
  · intro schema
    refine ofNode_eq_ok ?_ ?_ <;> rw [Json.get?_insert_ne _ _ (by decide)] <;> rfl
  · intro source given
    rw [ofDocument_document, given]
    exact ⟨rfl, rfl⟩

theorem document_roundTrip_array :
    let item := Encoding.constNone (.object [("name", .string "CONST_NONE"), ("options", .null)])
    let encoding := Encoding.fixedTypedArray 2 (.floorTypedArray 0 item [])
      [.boundedMultiple8BitsEnumFixed (-3) 250 18446744073709551615]
    let source := Json.object [
      ("options", .object [
        ("prefixEncodings", .array [.array [.string "BOUNDED_MULTIPLE_8BITS_ENUM_FIXED",
          .object [("multiplier", .number (.integer 18446744073709551615)),
            ("maximum", .number (.integer 250)), ("minimum", .number (.integer (-3)))]]]),
        ("size", .number (.integer 2)),
        ("unit", .null),
        ("encoding", nest .floorTypedArray [("minimum", .number .zero),
          ("encoding", nest item.kind item.options), ("prefixEncodings", .array [])])]),
      ("$schema", .string (metaschemaId ++ "#")),
      ("name", .string "FIXED_TYPED_ARRAY")]
    ofDocument source = .ok encoding ∧ ofDocument encoding.document = .ok encoding ∧
      ofNode (encoding.document.erase "$schema") = .ok encoding ∧
      ofNode (encoding.document.insert "$schema" .null) = .ok encoding ∧
      ofDocument encoding.document = ofDocument source ∧
      (ofDocument encoding.document).map document = .ok encoding.document := by
  intro item encoding source
  have given : ofDocument source = .ok encoding := by rfl
  obtain ⟨read, undeclared, redeclared, written⟩ := document_roundTrip encoding
  exact ⟨given, read, undeclared, redeclared .null, written source given⟩

end Encoding

end SchemaPack
