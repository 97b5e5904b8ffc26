/-!
# Faults in JSON5 texts

The causes for which a text is not a JSON5 document.
-/

namespace ConfigPack.Json5

/-- Why a text is not a document. -/
inductive Fault where
  /-- A character, or the end of the text, that does not continue what stands before it. -/
  | unexpected
  /-- A comment without an end. -/
  | unclosedComment
  /-- A string without an end, or with a line end inside. -/
  | unclosedString
  /-- An escape that stands for no character. -/
  | badEscape
  /-- A number that is too large, or in base sixteen with a sign. -/
  | badNumber
  /-- More text behind the document. -/
  | trailing
deriving DecidableEq, Repr

end ConfigPack.Json5
