import ConfigPack.Dict
import ConfigPack.Text.Quoted

/-!
# Values

Parameters, operands and results of expressions are texts or booleans.
-/

namespace ConfigPack

/-- A text or a boolean. -/
inductive Value where
  | text (value : String)
  | bool (value : Bool)
deriving DecidableEq, Repr, Inhabited

namespace Value

/-- Text is truthy when it is not empty, a boolean when it is true. -/
def isTruthy : Value → Bool
  | text s => !s.isEmpty
  | bool b => b

/-- The text of a text value. -/
def text? : Value → Option String
  | text s => some s
  | bool _ => none

/-- A value as it appears inside other text. -/
def display : Value → String
  | text s => s
  | bool b => if b then "true" else "false"

/-- A value as it appears in a message about its type. -/
def describe : Value → String
  | text s => "Text(" ++ Text.quoted s ++ ")"
  | bool b => "Bool(" ++ display (bool b) ++ ")"

end Value

/-- The values of parameters by id. -/
abbrev ParameterEnv := Dict Value

end ConfigPack
