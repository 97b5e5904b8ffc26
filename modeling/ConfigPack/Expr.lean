import ConfigPack.Text.Replace
import ConfigPack.Value

/-!
# Expressions

An expression is a small tree that conditions, formats and falls back over two operands at each
node.  A literal text that names a parameter stands for its value; every other literal stands for
itself.  A condition that holds gives its result, or the fallback of its caller when it declares
none, and one that does not hold gives false.
-/

namespace ConfigPack

/-- The question a condition asks about its operands. -/
inductive Comparison where
  /-- The operands are the same value. -/
  | equal
  /-- The first operand, a text, contains the second, a text. -/
  | contains
  /-- The operands differ. -/
  | differs
deriving DecidableEq, Repr

/-- What a condition declares to give when it holds. -/
inductive Outcome where
  | text (value : String)
  | yes
deriving DecidableEq, Repr

/-- The value of a declared outcome. -/
def Outcome.value : Outcome → Value
  | text s => .text s
  | yes => .bool true

mutual

/-- A node of an expression. -/
inductive Expr where
  /-- A condition on two operands. -/
  | condition (comparison : Comparison) (a b : Operand) (outcome : Option Outcome)
  /-- A template in which the names of the operands are replaced by their values. -/
  | format (a b : Operand) (template : String)
  /-- The first operand when it is truthy, else the second. -/
  | either (a b : Operand)

/-- One of the two operands of a node. -/
inductive Operand where
  /-- A boolean, the id of a parameter, or a text. -/
  | literal (value : Value)
  /-- An expression of its own. -/
  | nested (node : Expr)

end

deriving instance DecidableEq, Repr for Expr, Operand

/-- Containment was asked of operands that are not both texts. -/
structure Mismatch where
  left : Value
  right : Value
deriving DecidableEq, Repr

/-- The words for a mismatch. -/
def Mismatch.message (m : Mismatch) : String :=
  "type mismatch in 'contain': both operands must be strings, got " ++ m.left.describe ++ " and " ++
    m.right.describe

/-- Whether a comparison holds between two values. -/
def Comparison.holds (comparison : Comparison) (a b : Value) : Except Mismatch Bool :=
  match comparison with
  | equal => .ok (a = b)
  | differs => .ok (a ≠ b)
  | contains =>
    match a, b with
    | .text haystack, .text needle => .ok (haystack.contains needle)
    | a, b => .error ⟨a, b⟩

/-- What a condition gives. -/
def gate (holds : Bool) (outcome : Option Outcome) (fallback : Value) : Value :=
  if holds then (outcome.map Outcome.value).getD fallback else .bool false

/-- The fallback that operands receive: the caller's when truthy, else true. -/
def operandFallback (fallback : Value) : Value :=
  if fallback.isTruthy then fallback else .bool true

/-- A template with the values of the operands put in, those of the first before the second. -/
def fillTemplate (template : String) (a b : Value) : String :=
  Text.replace (Text.replace template "\x7ba\x7d" a.display) "\x7bb\x7d" b.display

mutual

/-- The value of an expression under the parameters resolved so far. -/
def Expr.evaluate (env : ParameterEnv) (fallback : Value) : Expr → Except Mismatch Value
  | .condition comparison a b outcome => do
    let x ← a.evaluate env fallback
    let y ← b.evaluate env fallback
    return gate (← comparison.holds x y) outcome fallback
  | .format a b template => do
    let x ← a.evaluate env fallback
    let y ← b.evaluate env fallback
    return .text (fillTemplate template x y)
  | .either a b => do
    let x ← a.evaluate env fallback
    if x.isTruthy then return x else b.evaluate env fallback

/-- The value of an operand of a node that is evaluated with `fallback`. -/
def Operand.evaluate (env : ParameterEnv) (fallback : Value) : Operand → Except Mismatch Value
  | .literal (.text s) => .ok ((env.find? s).getD (.text s))
  | .literal (.bool b) => .ok (.bool b)
  | .nested node => node.evaluate env (operandFallback fallback)

end

mutual

/-- The literal texts among the operands of a tree, depth first and from left to right. -/
def Expr.literalTexts : Expr → List String
  | .condition _ a b _ => a.literalTexts ++ b.literalTexts
  | .format a b _ => a.literalTexts ++ b.literalTexts
  | .either a b => a.literalTexts ++ b.literalTexts

/-- The literal texts of an operand. -/
def Operand.literalTexts : Operand → List String
  | .literal (.text s) => [s]
  | .literal (.bool _) => []
  | .nested node => node.literalTexts

end

/-- The word that names a comparison in a document. -/
def Comparison.word : Comparison → String
  | equal => "match"
  | contains => "contain"
  | differs => "not"

/-- The word that names the kind of an expression in a document. -/
def Expr.word : Expr → String
  | .condition comparison _ _ _ => comparison.word
  | .format _ _ _ => "format"
  | .either _ _ => "$or"

end ConfigPack
