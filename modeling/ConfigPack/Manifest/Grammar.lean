import ConfigPack.Manifest.Basic
import ConfigPack.Manifest.Fault

/-!
# The grammar of manifests

A document is read as a manifest; the first fault ends the reading.  Sections are read in the order
parameters, variables, excludes and built files, and in a node the type comes first, then the
operands, then the result, and last the rules of the type.  A section that is missing or null is
empty.
-/

namespace ConfigPack.Manifest

/-- The place of a field. -/
def within (place field : String) : String := place ++ "." ++ field

/-- The text of a field. -/
def textField? (fields : List (String × Json)) (name : String) : Option String :=
  (fields.lookup name).bind Json.text?

/-- The result that a node declares. -/
def readOutcome (fields : List (String × Json)) (place : String) :
    Except Fault (Option Outcome) :=
  match fields.lookup "result" with
  | none | some .null => .ok none
  | some (.string s) => .ok (some (.text s))
  | some (.bool true) => .ok (some .yes)
  | some _ => .error ⟨place, .badOutcome⟩

/-- The node of a type with its operands and result. -/
def makeExpr (word : String) (a b : Operand) (outcome : Option Outcome) (place : String) :
    Except Fault Expr :=
  match word with
  | "match" => .ok (.condition .equal a b outcome)
  | "contain" => .ok (.condition .contains a b outcome)
  | "not" => .ok (.condition .differs a b outcome)
  | "format" =>
    match outcome with
    | some (.text template) => .ok (.format a b template)
    | _ => .error ⟨within place "result", .formatOutcome⟩
  | "$or" | "or" =>
    match outcome with
    | none => .ok (.either a b)
    | some _ => .error ⟨within place "result", .eitherOutcome⟩
  | word => .error ⟨within place "type", .unknownExpression word⟩

/-- A reader of an operand at a place. -/
abbrev OperandReader := String → Except Fault Operand

/-- Read the operand of a name. -/
def readNamed (operands : List (String × OperandReader)) (place name : String) :
    Except Fault Operand :=
  match operands.lookup name with
  | some read => read (within place name)
  | none => .error ⟨within place name, .missing⟩

/-- Read the fields of a node, given readers for them as operands. -/
def readNode (fields : List (String × Json)) (operands : List (String × OperandReader))
    (place : String) : Except Fault Expr := do
  match textField? fields "type" with
  | none => throw ⟨within place "type", .notText⟩
  | some word =>
    let a ← readNamed operands place "a"
    let b ← readNamed operands place "b"
    let outcome ← readOutcome fields (within place "result")
    makeExpr word a b outcome place

mutual

/-- Read an operand. -/
def readOperand : Json → OperandReader
  | .string s, _ => .ok (.literal (.text s))
  | .bool b, _ => .ok (.literal (.bool b))
  | .object fields, place => (readNode fields (operandReaders fields) place).map .nested
  | _, place => .error ⟨place, .badOperand⟩

/-- The readers of fields as operands. -/
def operandReaders : List (String × Json) → List (String × OperandReader)
  | [] => []
  | (name, value) :: rest => (name, readOperand value) :: operandReaders rest

end

/-- Read an expression. -/
def readExpr (value : Json) (place : String) : Except Fault Expr :=
  match value with
  | .object fields => readNode fields (operandReaders fields) place
  | _ => .error ⟨place, .expressionNotObject⟩

/-- The default that fits a kind of question. -/
def readDefault (kind : QuestionKind) (value : Option Json) (place : String) :
    Except Fault (Option Value) :=
  match kind, value with
  | _, none => .ok none
  | _, some .null => .ok none
  | .text, some (.string s) => .ok (some (.text s))
  | .confirm, some (.bool b) => .ok (some (.bool b))
  | .text, some _ => .error ⟨place, .textDefault⟩
  | .confirm, some _ => .error ⟨place, .confirmDefault⟩

/-- The kind of question that a word names. -/
def questionKind? : Option String → Option QuestionKind
  | some "text" => some .text
  | some "confirm" => some .confirm
  | _ => none

/-- Read a question. -/
def readQuestion (fields : List (String × Json)) (place : String) : Except Fault Question := do
  match questionKind? (textField? fields "type") with
  | none => throw ⟨within place "type", .unknownQuestionKind⟩
  | some kind =>
    match textField? fields "label" with
    | none => throw ⟨within place "label", .notText⟩
    | some label =>
      let default ← readDefault kind (fields.lookup "initial") (within place "initial")
      return ⟨kind, label, default⟩

/-- Read how a parameter gets its value. -/
def readParameterRule (value : Option Json) (place : String) : Except Fault ParameterRule :=
  match value.bind Json.fields? with
  | none => .error ⟨place, .notObject⟩
  | some fields =>
    match textField? fields "operation" with
    | some "prompt" => (readQuestion fields place).map .ask
    | some "resolvable" =>
      match fields.lookup "resolvable" with
      | some node => (readExpr node (within place "resolvable")).map .compute
      | none => .error ⟨within place "resolvable", .missing⟩
    | some other => .error ⟨within place "operation", .unknownOperation other⟩
    | none => .error ⟨within place "operation", .notText⟩

/-- Read a parameter whose id is none of those before it. -/
def readParameter (seen : List String) (value : Json) (place : String) :
    Except Fault Parameter := do
  match value.fields? with
  | none => throw ⟨place, .notObject⟩
  | some fields =>
    match (textField? fields "id").filter (· ≠ "") with
    | none => throw ⟨within place "id", .emptyText⟩
    | some id =>
      if id ∈ seen then throw ⟨within place "id", .duplicateId id⟩
      let rule ← readParameterRule (fields.lookup "resolver") (within place "resolver")
      return ⟨id, rule⟩

/-- Read parameters from an index on. -/
def readParameterItems (index : Nat) (seen : List String) :
    List Json → Except Fault (List Parameter)
  | [] => .ok []
  | value :: rest => do
    let parameter ← readParameter seen value s!"parameters[{index}]"
    return parameter :: (← readParameterItems (index + 1) (parameter.id :: seen) rest)

/-- Read the section of parameters. -/
def readParameters (part? : Option Json) : Except Fault (List Parameter) :=
  match part? with
  | none | some .null => .ok []
  | some (.array items) => readParameterItems 0 [] items
  | some _ => .error ⟨"parameters", .notArray⟩

/-- Read the fields of a section one after the other. -/
def readEntries {α : Type} (name : String) (read : Json → String → Except Fault α) :
    List (String × Json) → Except Fault (List (String × α))
  | [] => .ok []
  | (key, value) :: rest => do
    if key = "" then throw ⟨within name key, .emptyKey⟩
    let entry ← read value (within name key)
    return (key, entry) :: (← readEntries name read rest)

/-- Read a section whose fields have keys of their own. -/
def readSection {α : Type} (name : String) (part? : Option Json)
    (read : Json → String → Except Fault α) : Except Fault (List (String × α)) :=
  match part? with
  | none | some .null => .ok []
  | some (.object fields) => readEntries name read fields
  | some _ => .error ⟨name, .notObject⟩

/-- Require that a condition that has to give a text declares one. -/
def requireText (node : Expr) (place : String) : Except Fault Unit :=
  match node with
  | .condition _ _ _ (some (.text _)) => .ok ()
  | .condition comparison _ _ _ => .error ⟨within place "result", .textOutcome comparison.word⟩
  | _ => .ok ()

/-- Read a rule that gives a text. -/
def readTextRule (value : Json) (place : String) : Except Fault (Rule String) := do
  match value with
  | .string s => return .literal s
  | .object _ =>
    let node ← readExpr value place
    requireText node place
    return .compute node
  | _ => throw ⟨place, .badText⟩

/-- Read a rule that gives a flag. -/
def readFlagRule (value : Json) (place : String) : Except Fault (Rule Bool) := do
  match value with
  | .bool b => return .literal b
  | .object _ =>
    match ← readExpr value place with
    | .format _ _ _ => throw ⟨within place "type", .formatFlag⟩
    | node => return .compute node
  | _ => throw ⟨place, .badFlag⟩

/-- Read a built file. -/
def readBuilder (value : Json) (place : String) : Except Fault BuilderEntry := do
  match value.fields? with
  | none => throw ⟨place, .notObject⟩
  | some fields =>
    match (textField? fields "filePath").filter (· ≠ "") with
    | none => throw ⟨within place "filePath", .emptyText⟩
    | some path =>
      match fields.lookup "content" with
      | none => throw ⟨within place "content", .missing⟩
      | some content => return ⟨path, ← readTextRule content (within place "content")⟩

/-- The name of the section of parameters. -/
def parametersKey : String := "parameters"

/-- The name of the section of variables. -/
def variablesKey : String := "variablesResolver"

/-- The name of the section of excludes. -/
def excludesKey : String := "excludesResolver"

/-- The name of the section of built files. -/
def buildersKey : String := "filesBuildResolver"

/-- Read a document as a manifest. -/
def ofJson (document : Json) : Except Fault Manifest := do
  match document.fields? with
  | none => throw ⟨"$", .rootNotObject⟩
  | some fields =>
    let parameters ← readParameters (fields.lookup parametersKey)
    let tokens ← readSection variablesKey (fields.lookup variablesKey) readTextRule
    let excludes ← readSection excludesKey (fields.lookup excludesKey) readFlagRule
    let builders ← readSection buildersKey (fields.lookup buildersKey) readBuilder
    return ⟨parameters, tokens, excludes, builders, document⟩

end ConfigPack.Manifest
