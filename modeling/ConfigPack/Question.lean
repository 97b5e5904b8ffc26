import ConfigPack.Value

/-!
# Questions

A question is put to the user for the value of a parameter.  Without a user the declared default is
the answer.
-/

namespace ConfigPack

/-- The kind of answer that a question expects. -/
inductive QuestionKind where
  /-- Free text. -/
  | text
  /-- Yes or no. -/
  | confirm
deriving DecidableEq, Repr

/-- A question to the user. -/
structure Question where
  kind : QuestionKind
  label : String
  /-- The answer that is offered. -/
  default : Option Value
deriving DecidableEq, Repr

/-- Why a question has no answer. -/
inductive NoAnswer where
  /-- The user put the question aside. -/
  | cancelled
  /-- The question could not be asked. -/
  | failed (reason : String)
deriving DecidableEq, Repr

/-- The answer that a question gives itself: its default in the form of its kind. -/
def Question.defaultAnswer (question : Question) : Except NoAnswer Value :=
  match question.default, question.kind with
  | some value, .text => .ok (.text value.display)
  | some value, .confirm => .ok (.bool value.isTruthy)
  | none, _ =>
    .error (.failed s!"'{question.label}' has no default and input is non-interactive")

end ConfigPack
