import ConfigPack.ConfigError
import ConfigPack.Hook.Listener

/-!
# Resolving parameters

Parameters get their values in the order of their declarations.  A listener may give a value first;
otherwise the user is asked, or the expression is evaluated over the parameters before it.  A value
of an expression that is not truthy counts as false.
-/

namespace ConfigPack

/-- Whoever answers questions. -/
abbrev Prompter (σ : Type) := Question → ExceptT NoAnswer (StateM σ) Value

/-- The answers of questions that answer themselves. -/
def Prompter.defaults {σ : Type} : Prompter σ := fun question => liftM question.defaultAnswer

namespace Parameters

variable {σ : Type}

/-- What it means for a parameter that its question has no answer. -/
def noAnswer (id : String) : NoAnswer → ConfigError
  | .cancelled => .cancelled id
  | .failed reason => .promptFailed id reason

/-- Require that every declared parameter that an expression names has a value. -/
def checkReferences (node : Expr) (owner : String) (declared : List String) (env : ParameterEnv) :
    Except ConfigError Unit :=
  match node.literalTexts.find? fun text => declared.contains text && !env.contains text with
  | some reference => .error (.unresolvedReference owner reference)
  | none => .ok ()

/-- The value of an expression that `owner` holds. -/
def evaluate (declared : List String) (env : ParameterEnv) (owner : String) (node : Expr) :
    Except ConfigError Value := do
  checkReferences node owner declared env
  (node.evaluate env (.bool true)).mapError .mismatch

/-- The value of a parameter that no listener gave. -/
def valueOf (declared : List String) (prompter : Prompter σ) (env : ParameterEnv)
    (parameter : Parameter) : Talk σ ConfigError Value :=
  match parameter.rule with
  | .ask question => Talk.withHost (noAnswer parameter.id) (prompter question)
  | .compute node => do
    let value ← liftM (evaluate declared env parameter.id node)
    return if value.isTruthy then value else .bool false

/-- Resolve one parameter after those before it. -/
def resolveNext (declared : List String) (prompter : Prompter σ) (bus : Bus σ)
    (env : ParameterEnv) (parameter : Parameter) : Talk σ ConfigError ParameterEnv := do
  let env ← Talk.withHost .hook (bus.emitParameter parameter env)
  if env.contains parameter.id then
    Talk.log .debug s!"parameter {parameter.id} pre-seeded by hook"
    return env
  let value ← valueOf declared prompter env parameter
  Talk.log .debug s!"parameter {parameter.id} = {value.display}"
  return env.insert parameter.id value

/-- Resolve parameters in order. -/
def resolve (parameters : List Parameter) (prompter : Prompter σ) (bus : Bus σ) :
    Talk σ ConfigError ParameterEnv :=
  parameters.foldlM (resolveNext (parameters.map Parameter.id) prompter bus) Dict.empty

end Parameters

end ConfigPack
