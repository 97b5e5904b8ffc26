/-!
# Faults in TOML texts

The causes for which a text is not a TOML document.
-/

namespace ConfigPack.Toml

/-- Why a text is not a document. -/
inductive Fault where
  /-- A character, or the end of the text, that does not continue what stands before it. -/
  | unexpected
  /-- A string without an end, or with a character that may not stand in it. -/
  | badString
  /-- An escape that stands for no character. -/
  | badEscape
  /-- Digits with an underscore that does not stand between two of them. -/
  | badDigits
  /-- A number that is too large. -/
  | numberTooLarge
  /-- A date or time that does not exist. -/
  | badTime
  /-- A key that stands twice, or a table that is defined twice. -/
  | duplicate
  /-- A key of a table that is a value. -/
  | notTable
  /-- Too many nested values, or a key with too many parts. -/
  | tooDeep
deriving DecidableEq, Repr

end ConfigPack.Toml
