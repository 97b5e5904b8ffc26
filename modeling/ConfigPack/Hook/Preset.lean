import ConfigPack.Hook.Listener
import ConfigPack.Text.CodePoint

/-!
# Presets

Values for parameters that are given beforehand as assignments, so that nobody is asked for them.
-/

namespace ConfigPack

/-- The texts that are given for parameters, by id. -/
structure Presets where
  values : Dict String

namespace Presets

/-- The two sides of the first equals sign. -/
def splitAssignment (before : List Char) : List Char → Option (String × String)
  | [] => none
  | '=' :: rest => some (String.ofList before.reverse, String.ofList rest)
  | c :: rest => splitAssignment (c :: before) rest

/-- An assignment without an equals sign or without an id. -/
structure BadAssignment where
  text : String
deriving DecidableEq, Repr

/-- The words for a bad assignment. -/
def BadAssignment.message (bad : BadAssignment) : String := s!"expected ID=VALUE, got '{bad.text}'"

/-- Read an assignment. -/
def readAssignment (text : String) : Except BadAssignment (String × String) :=
  match splitAssignment [] text.toList with
  | some (id, value) => if id = "" then .error ⟨text⟩ else .ok (id, value)
  | none => .error ⟨text⟩

/-- The presets of assignments; of two for one id the later counts. -/
def ofAssignments (assignments : List String) : Except BadAssignment Presets := do
  return ⟨Dict.ofList (← assignments.mapM readAssignment)⟩

/-- The boolean that a word stands for. -/
def boolean? (word : String) : Option Bool :=
  match Text.lowerAscii word with
  | "true" | "yes" | "y" | "1" => some true
  | "false" | "no" | "n" | "0" => some false
  | _ => none

/-- The value that a text gives a parameter. -/
def valueFor (parameter : Parameter) (text : String) : Except Abort Value :=
  match parameter.rule with
  | .ask ⟨.confirm, _, _⟩ =>
    match boolean? text with
    | some b => .ok (.bool b)
    | none =>
      .error ⟨.parameter, s!"'{text}' is not a yes/no value for confirm parameter '{parameter.id}'"⟩
  | _ => .ok (.text text)

/-- The parameters with the preset value of one of them, unless it has a value already. -/
def apply (presets : Presets) (parameter : Parameter) (env : ParameterEnv) :
    Except Abort ParameterEnv :=
  if env.contains parameter.id then .ok env
  else
    match presets.values.find? parameter.id with
    | none => .ok env
    | some text => (valueFor parameter text).map fun value => env.insert parameter.id value

/-- The listener that gives parameters their preset values. -/
def listener {σ : Type} (presets : Presets) : Listener σ where
  onParameter parameter env := liftM (presets.apply parameter env)

end Presets

end ConfigPack
