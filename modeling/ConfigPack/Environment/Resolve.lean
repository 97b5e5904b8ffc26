import ConfigPack.Parameters

/-!
# Resolving a manifest

The sections of a manifest are resolved one after the other, each in the order of its entries, over
parameters that all have values.  A listener may give the value of an entry first.  A text that is
the id of a parameter with a text stands for that text.
-/

namespace ConfigPack.Environment

variable {σ : Type}

/-- The text of the parameter that a text names, or the text itself. -/
def inject (parameters : ParameterEnv) (text : String) : String :=
  match parameters.find? text with
  | some (.text value) => value
  | _ => text

/-- The text that a rule gives; a value that is not truthy gives the empty text. -/
def textOf (declared : List String) (parameters : ParameterEnv) (owner : String) :
    Rule String → Except ConfigError String
  | .literal text => .ok text
  | .compute node => do
    let value ← Parameters.evaluate declared parameters owner node
    return if value.isTruthy then value.display else ""

/-- The flag that a rule gives. -/
def flagOf (declared : List String) (parameters : ParameterEnv) (owner : String) :
    Rule Bool → Except ConfigError Bool
  | .literal flag => .ok flag
  | .compute node => do
    return (← Parameters.evaluate declared parameters owner node).isTruthy

/-- Resolve one variable after those before it. -/
def resolveVariable (declared : List String) (parameters : ParameterEnv) (bus : Bus σ)
    (resolved : Dict String) (entry : String × Rule String) :
    Talk σ ConfigError (Dict String) := do
  let (name, rule) := entry
  let resolved ← Talk.withHost .hook (bus.emitVariable name rule resolved)
  let text ← match resolved.find? name with
    | some seeded => pure seeded
    | none => liftM (textOf declared parameters name rule)
  return resolved.insert name (inject parameters text)

/-- Decide for one path whether it is left out, after those before it. -/
def resolveExclude (declared : List String) (parameters : ParameterEnv) (bus : Bus σ)
    (resolved : Dict Bool) (entry : String × Rule Bool) : Talk σ ConfigError (Dict Bool) := do
  let (path, rule) := entry
  let resolved ← Talk.withHost .hook (bus.emitExclude path rule resolved)
  if resolved.contains path then return resolved
  return resolved.insert path (← liftM (flagOf declared parameters path rule))

/-- Build one file after those before it. -/
def resolveBuilder (declared : List String) (parameters : ParameterEnv) (bus : Bus σ)
    (resolved : Dict BuiltFile) (entry : String × BuilderEntry) :
    Talk σ ConfigError (Dict BuiltFile) := do
  let (key, builder) := entry
  let resolved ← Talk.withHost .hook (bus.emitBuilder key builder resolved)
  let built ← match resolved.find? key with
    | some seeded => pure seeded
    | none => pure ⟨builder.path, ← liftM (textOf declared parameters key builder.content)⟩
  return resolved.insert key { built with content := inject parameters built.content }

/-- The environment of a manifest. -/
def resolve (manifest : Manifest) (parameters : ParameterEnv) (bus : Bus σ) :
    Talk σ ConfigError Environment := do
  let declared := manifest.ids
  let tokens ← manifest.tokens.foldlM (resolveVariable declared parameters bus) Dict.empty
  let excludes ← manifest.excludes.foldlM (resolveExclude declared parameters bus) Dict.empty
  let builders ← manifest.builders.foldlM (resolveBuilder declared parameters bus) Dict.empty
  Talk.log .debug
    s!"resolved {tokens.size} variables, {excludes.size} excludes, {builders.size} builder files"
  return ⟨tokens, excludes, builders⟩

end ConfigPack.Environment
