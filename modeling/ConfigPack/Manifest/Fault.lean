/-!
# Faults in manifests

What can be wrong with a part of a manifest, and the words for it.  A fault names the place of the
part as the keys that lead to it.
-/

namespace ConfigPack.Manifest

/-- What is wrong with a part of a manifest. -/
inductive Flaw where
  | rootNotObject
  | notArray
  | notObject
  | notText
  | emptyText
  | missing
  | duplicateId (id : String)
  | unknownOperation (operation : String)
  | unknownQuestionKind
  | textDefault
  | confirmDefault
  | expressionNotObject
  | badOperand
  | badOutcome
  | formatOutcome
  | eitherOutcome
  | unknownExpression (word : String)
  | emptyKey
  | textOutcome (word : String)
  | badText
  | badFlag
  | formatFlag
deriving DecidableEq, Repr

/-- The words for a flaw. -/
def Flaw.message : Flaw → String
  | rootNotObject => "manifest root must be an object"
  | notArray => "must be an array"
  | notObject => "must be an object"
  | notText => "must be a string"
  | emptyText => "must be a non-empty string"
  | missing => "is required"
  | duplicateId id => s!"duplicate parameter id '{id}'"
  | unknownOperation operation =>
    s!"unknown operation '{operation}', expected 'prompt' or 'resolvable'"
  | unknownQuestionKind => "must be 'text' or 'confirm'"
  | textDefault => "must be a string for text prompts"
  | confirmDefault => "must be a boolean for confirm prompts"
  | expressionNotObject => "resolvable must be an object"
  | badOperand => "must be a string, a boolean or a resolvable"
  | badOutcome => "must be a string or true"
  | formatOutcome => "format requires a string result"
  | eitherOutcome => "$or does not take a result"
  | unknownExpression word => s!"unknown resolvable type '{word}'"
  | emptyKey => "key must not be empty"
  | textOutcome word => s!"'{word}' must have a string result here"
  | badText => "must be a string or a resolvable"
  | badFlag => "must be a boolean or a resolvable"
  | formatFlag => "format is not allowed for excludes"

/-- A part of a manifest and what is wrong with it. -/
structure Fault where
  /-- The place of the part. -/
  place : String
  flaw : Flaw
deriving DecidableEq, Repr

end ConfigPack.Manifest
