import SchemaPack.Encoding.Basic
import SchemaPack.Proofs.Rules.Invariant
import SchemaPack.Proofs.Schema.Detection

namespace SchemaPack

namespace Dialect

theorem followBase_ok {resolver : Resolver} {dialect base : String} {lookups : Nat}
    {current : String} (followed : followBase resolver dialect lookups current = .ok base) :
    ∃ found, metaschema resolver base = .ok found ∧ parent? base found = none := by
  obtain ⟨_, found, _, _, given, ends⟩ := exists_climbs followed
  exact ⟨found, given, ends⟩

theorem ofNode_of_ofDocument {document node : Json} {default : Option String}
    {dialect : String} (root : ofDocument document default = .ok dialect)
    (same : declared? node = declared? document) : ofNode dialect node = dialect := by
  unfold ofDocument at root
  unfold ofNode
  rw [same]
  cases declared : declared? document with
  | none => rfl
  | some id =>
    rw [declared] at root
    exact Except.ok.inj root

theorem context_of_ofDocument {resolver : Resolver} {document node : Json}
    {default : Option String} {dialect : String} {pointer : Pointer} {context : Context}
    (root : ofDocument document default = .ok dialect)
    (same : declared? node = declared? document)
    (here : Context.of resolver dialect pointer node = .ok context) :
    context.dialect = dialect ∧ base resolver dialect = .ok context.baseDialect ∧
      vocabularies resolver dialect = .ok context.vocabularies ∧ context.pointer = pointer := by
  obtain ⟨based, active, own, place⟩ := Context.of_eq_ok_iff.mp here
  rw [ofNode_of_ofDocument root same] at own
  rw [own] at based active
  exact ⟨own, based, active, place⟩

end Dialect

namespace Encoding

theorem normalizeId_metaschemaId : normalizeId metaschemaId = metaschemaId := by
  decide +kernel

theorem declared?_document (encoding : Encoding) :
    Dialect.declared? encoding.document = some metaschemaId := rfl

theorem ofNode_document (inherited : String) (encoding : Encoding) :
    Dialect.ofNode inherited encoding.document = metaschemaId := by
  rw [Dialect.ofNode, declared?_document, Option.map_some, Option.getD_some,
    normalizeId_metaschemaId]

theorem ofDocument_dialect (default : Option String) (encoding : Encoding) :
    Dialect.ofDocument encoding.document default = .ok metaschemaId := by
  rw [Dialect.ofDocument, declared?_document, Option.some_or]
  exact congrArg Except.ok normalizeId_metaschemaId

theorem isEncoding_of_ne {dialect : String} (foreign : dialect ≠ metaschemaId) (node : Json) :
    isEncoding dialect node = false := by
  rw [isEncoding, beq_eq_false_iff_ne.mpr foreign, Bool.false_and, Bool.false_and]

theorem isEncoding_document (encoding : Encoding) :
    isEncoding metaschemaId encoding.document = true := rfl

theorem metaschema_resolver (resolver : Resolver) :
    Dialect.metaschema (Encoding.resolver resolver) metaschemaId = .ok metaschema := by
  rw [Dialect.metaschema, normalizeId_metaschemaId, Encoding.resolver,
    if_pos normalizeId_metaschemaId]
  rfl

theorem parent?_metaschema :
    Dialect.parent? metaschemaId metaschema = some Dialect.draft202012 := by
  decide +kernel

theorem base_metaschemaId {resolver : Resolver} {dialect : String}
    (based : Dialect.base (Encoding.resolver resolver) dialect = .ok Dialect.draft202012) :
    Dialect.base (Encoding.resolver resolver) metaschemaId = .ok Dialect.draft202012 := by
  obtain ⟨found, given, top⟩ := Dialect.followBase_ok based
  rw [Dialect.base, normalizeId_metaschemaId, Dialect.maximumChain, Dialect.followBase,
    metaschema_resolver]
  dsimp only [bind, Except.bind]
  rw [parent?_metaschema]
  dsimp only
  rw [Dialect.followBase, given]
  dsimp only [bind, Except.bind]
  rw [top]

theorem vocabularies_metaschemaId (resolver : Resolver) :
    Dialect.vocabularies (Encoding.resolver resolver) metaschemaId = .ok [Vocabulary.core] := by
  rw [Dialect.vocabularies, normalizeId_metaschemaId, Dialect.maximumChain,
    Dialect.followVocabularies, metaschema_resolver]
  rfl

theorem plain_of_document {encoding : Encoding} {members : Members}
    (same : Json.object members = encoding.document) :
    ∀ entry ∈ members, entry.1 ∈ Keyword.plain := by
  have keywords : members = [("$schema", .string metaschemaId),
      ("name", .string encoding.kind.name), ("options", .object encoding.options)] :=
    Json.object.inj same
  rw [keywords]
  simp only [List.forall_mem_cons]
  exact ⟨by decide, by decide, by decide, List.forall_mem_nil _⟩

theorem eq_document_of_alike {vocabularies : Vocabularies} {encoding : Encoding}
    {members results : Members} (same : Json.object members = encoding.document)
    (alike : Alike vocabularies members results) : Json.object results = encoding.document := by
  rw [← alike.eq (plain_of_document same), same]

def context (pointer : Pointer) : Context where
  dialect := metaschemaId
  baseDialect := Dialect.draft202012
  vocabularies := [Vocabulary.core]
  pointer := pointer

theorem context_of_document {resolver : Resolver} {dialect : String}
    (based : Dialect.base (Encoding.resolver resolver) dialect = .ok Dialect.draft202012)
    (inherited : String) (pointer : Pointer) (encoding : Encoding) :
    Context.of (Encoding.resolver resolver) inherited pointer encoding.document =
      .ok (context pointer) :=
  Context.of_eq_ok_iff.mpr ⟨base_metaschemaId based, vocabularies_metaschemaId resolver,
    (ofNode_document inherited encoding).symm, rfl⟩

end Encoding

end SchemaPack
