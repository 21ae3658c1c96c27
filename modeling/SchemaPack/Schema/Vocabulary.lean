namespace SchemaPack

/-- The URIs of the vocabularies that are active, in the order of the metaschema. -/
abbrev Vocabularies := List String

namespace Vocabulary

def core : String := "https://json-schema.org/draft/2020-12/vocab/core"

def applicator : String := "https://json-schema.org/draft/2020-12/vocab/applicator"

def unevaluated : String := "https://json-schema.org/draft/2020-12/vocab/unevaluated"

def validation : String := "https://json-schema.org/draft/2020-12/vocab/validation"

def metaData : String := "https://json-schema.org/draft/2020-12/vocab/meta-data"

def formatAnnotated : String := "https://json-schema.org/draft/2020-12/vocab/format-annotation"

def formatAsserted : String := "https://json-schema.org/draft/2020-12/vocab/format-assertion"

def content : String := "https://json-schema.org/draft/2020-12/vocab/content"

end Vocabulary

end SchemaPack
