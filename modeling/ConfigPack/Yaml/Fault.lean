/-!
# Faults in YAML texts

The causes for which a text is not a YAML document, or a value cannot be written as one.
-/

namespace ConfigPack.Yaml

/-- Why a text is not a document or a value has no text. -/
inductive Fault where
  /-- A character that a document may not hold. -/
  | forbiddenCharacter
  /-- A character that begins no token. -/
  | unknownToken
  /-- A directive that is unknown, malformed, repeated or of another version. -/
  | badDirective
  /-- An anchor or alias without a proper name. -/
  | badAnchor
  /-- A tag that is malformed or uses an undeclared handle. -/
  | badTag
  /-- An escape that stands for no character. -/
  | badEscape
  /-- A header of a block scalar that is malformed. -/
  | badBlockHeader
  /-- A tab where indentation is expected. -/
  | tabIndentation
  /-- The text or the document ends inside a quoted scalar. -/
  | unclosedQuote
  /-- A colon that may not stand there. -/
  | unexpectedColon
  /-- A key on a line of its own that no colon follows. -/
  | missingColon
  /-- An entry, key or value in a place that does not allow one. -/
  | misplacedIndicator
  /-- A token that does not continue what stands before it. -/
  | unexpectedToken
  /-- An alias without an anchor before it. -/
  | unknownAlias
  /-- Too many nested sequences and mappings. -/
  | tooDeep
  /-- Too many aliases are followed. -/
  | tooManyAliases
  /-- A scalar whose tag does not fit its text. -/
  | unfitTag
  /-- A number of more than 64 bits. -/
  | numberTooWide
  /-- A tag of the application where none is allowed. -/
  | applicationTag
  /-- A key that is not a scalar where texts are needed. -/
  | keyNotText
  /-- Two equal keys in one mapping. -/
  | duplicateKey
  /-- More than one document. -/
  | manyDocuments
  /-- A mapping of one entry whose key is such a mapping or carries a tag. -/
  | unwritableKey
deriving DecidableEq, Repr

end ConfigPack.Yaml
