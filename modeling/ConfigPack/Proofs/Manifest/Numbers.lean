import ConfigPack.Manifest.Grammar
import ConfigPack.Proofs.Result

/-!
# Numbers in manifests

No part of a manifest is a number, so documents that differ only in their numbers are read as one
manifest, or fail to be read by one fault (`ofJson_zeroed`).
-/

namespace ConfigPack

namespace Json

mutual

/-- A document with zero for each of its numbers. -/
def zeroed : Json → Json
  | .null => .null
  | .bool b => .bool b
  | .number _ => .number (.int 0)
  | .string s => .string s
  | .array items => .array (zeroedItems items)
  | .object fields => .object (zeroedFields fields)

/-- Items with zero for each number. -/
def zeroedItems : List Json → List Json
  | [] => []
  | item :: rest => item.zeroed :: zeroedItems rest

/-- Fields with zero for each number. -/
def zeroedFields : List (String × Json) → List (String × Json)
  | [] => []
  | (name, value) :: rest => (name, value.zeroed) :: zeroedFields rest

end

/-- The same fields are found, with zero for their numbers. -/
lemma lookup_zeroed (name : String) :
    ∀ fields : List (String × Json),
      (zeroedFields fields).lookup name = (fields.lookup name).map zeroed
  | [] => by
    rw [zeroedFields]
    rfl
  | (first, value) :: rest => by
    rw [zeroedFields, List.lookup_cons, List.lookup_cons, lookup_zeroed name rest]
    split <;> rfl

@[simp] lemma text?_zeroed (value : Json) : value.zeroed.text? = value.text? := by
  cases value <;> rfl

@[simp] lemma fields?_zeroed (value : Json) :
    value.zeroed.fields? = value.fields?.map zeroedFields := by
  cases value <;> rfl

end Json

namespace Manifest

open Json

variable {fields : List (String × Json)} {place : String}

/-- A field that is a text has no numbers. -/
lemma textField?_zeroed (fields : List (String × Json)) (name : String) :
    textField? (zeroedFields fields) name = textField? fields name := by
  rw [textField?, textField?, lookup_zeroed]
  cases fields.lookup name with
  | none => rfl
  | some value => exact text?_zeroed value

/-! ## Expressions -/

/-- An outcome is no number. -/
lemma readOutcome_zeroed (fields : List (String × Json)) (place : String) :
    readOutcome (zeroedFields fields) place = readOutcome fields place := by
  rw [readOutcome, readOutcome, lookup_zeroed]
  cases fields.lookup "result" with
  | none => rfl
  | some value =>
    cases value with
    | bool b => cases b <;> rfl
    | _ => rfl

/-- A node is read from fields without a look at numbers. -/
lemma readNode_zeroed (fields : List (String × Json)) (operands : List (String × OperandReader))
    (place : String) :
    readNode (zeroedFields fields) operands place = readNode fields operands place := by
  simp only [readNode, textField?_zeroed, readOutcome_zeroed]

mutual

/-- So is an operand. -/
lemma readOperand_zeroed : ∀ value : Json, readOperand value.zeroed = readOperand value
  | .null | .bool _ | .number _ | .string _ => rfl
  | .array _ => rfl
  | .object fields => by
    funext place
    rw [zeroed, readOperand, readOperand, operandReaders_zeroed fields, readNode_zeroed]

/-- So are the operands that the fields of a node can give. -/
lemma operandReaders_zeroed : ∀ fields : List (String × Json),
    operandReaders (zeroedFields fields) = operandReaders fields
  | [] => rfl
  | (name, value) :: rest => by
    rw [zeroedFields, operandReaders, operandReaders, readOperand_zeroed value,
      operandReaders_zeroed rest]

end

/-- So is a whole node. -/
lemma readExpr_zeroed (value : Json) (place : String) :
    readExpr value.zeroed place = readExpr value place := by
  cases value with
  | object fields =>
    rw [zeroed, readExpr, readExpr, operandReaders_zeroed, readNode_zeroed]
  | _ => rfl

/-! ## Parameters -/

/-- A default is no number. -/
lemma readDefault_zeroed (kind : QuestionKind) (value : Option Json) (place : String) :
    readDefault kind (value.map zeroed) place = readDefault kind value place := by
  cases value with
  | none => rfl
  | some value => cases kind <;> cases value <;> rfl

/-- A question is read without a look at numbers. -/
lemma readQuestion_zeroed (fields : List (String × Json)) (place : String) :
    readQuestion (zeroedFields fields) place = readQuestion fields place := by
  simp only [readQuestion, textField?_zeroed, lookup_zeroed, readDefault_zeroed]

/-- So is the rule of a parameter. -/
lemma readParameterRule_zeroed (value : Option Json) (place : String) :
    readParameterRule (value.map zeroed) place = readParameterRule value place := by
  have hfields : (value.map zeroed).bind Json.fields? =
      (value.bind Json.fields?).map zeroedFields := by
    cases value with
    | none => rfl
    | some value => exact fields?_zeroed value
  rw [readParameterRule, readParameterRule, hfields]
  cases value.bind Json.fields? with
  | none => rfl
  | some fields =>
    simp only [Option.map_some, textField?_zeroed, readQuestion_zeroed, lookup_zeroed]
    cases fields.lookup "resolvable" with
    | none => rfl
    | some node => simp only [Option.map_some, readExpr_zeroed]

/-- So is a parameter. -/
lemma readParameter_zeroed (seen : List String) (value : Json) (place : String) :
    readParameter seen value.zeroed place = readParameter seen value place := by
  simp only [readParameter, fields?_zeroed]
  cases value.fields? with
  | none => rfl
  | some fields =>
    simp only [Option.map_some, textField?_zeroed, lookup_zeroed, readParameterRule_zeroed]

/-- So are several of them. -/
lemma readParameterItems_zeroed : ∀ (items : List Json) (index : Nat) (seen : List String),
    readParameterItems index seen (zeroedItems items) = readParameterItems index seen items
  | [], _, _ => rfl
  | value :: rest, index, seen => by
    simp only [zeroedItems, readParameterItems, readParameter_zeroed,
      readParameterItems_zeroed rest]

/-- So are all parameters of a manifest. -/
lemma readParameters_zeroed (part? : Option Json) :
    readParameters (part?.map zeroed) = readParameters part? := by
  cases part? with
  | none => rfl
  | some part =>
    cases part with
    | array items => exact readParameterItems_zeroed items 0 []
    | _ => rfl

/-! ## Sections -/

section

variable {α : Type} {read : Json → String → Except Fault α}

/-- Entries are read without a look at numbers when each of them is. -/
lemma readEntries_zeroed (hread : ∀ value place, read value.zeroed place = read value place)
    (name : String) : ∀ fields : List (String × Json),
      readEntries name read (zeroedFields fields) = readEntries name read fields
  | [] => rfl
  | (key, value) :: rest => by
    simp only [zeroedFields, readEntries, hread, readEntries_zeroed hread name rest]

/-- So is a section of them. -/
lemma readSection_zeroed (hread : ∀ value place, read value.zeroed place = read value place)
    (name : String) (part? : Option Json) :
    readSection name (part?.map zeroed) read = readSection name part? read := by
  cases part? with
  | none => rfl
  | some part =>
    cases part with
    | object fields => exact readEntries_zeroed hread name fields
    | _ => rfl

end

/-- A rule for a text is read without a look at numbers. -/
lemma readTextRule_zeroed (value : Json) (place : String) :
    readTextRule value.zeroed place = readTextRule value place := by
  cases value with
  | object fields =>
    have hexpr := readExpr_zeroed (.object fields) place
    rw [zeroed] at hexpr ⊢
    rw [readTextRule, readTextRule, hexpr]
  | _ => rfl

/-- So is a rule for a flag. -/
lemma readFlagRule_zeroed (value : Json) (place : String) :
    readFlagRule value.zeroed place = readFlagRule value place := by
  cases value with
  | object fields =>
    have hexpr := readExpr_zeroed (.object fields) place
    rw [zeroed] at hexpr ⊢
    rw [readFlagRule, readFlagRule, hexpr]
  | _ => rfl

/-- So is a file that is built. -/
lemma readBuilder_zeroed (value : Json) (place : String) :
    readBuilder value.zeroed place = readBuilder value place := by
  simp only [readBuilder, fields?_zeroed]
  cases value.fields? with
  | none => rfl
  | some fields =>
    simp only [Option.map_some, textField?_zeroed, lookup_zeroed]
    cases fields.lookup "content" with
    | none => rfl
    | some content => simp only [Option.map_some, readTextRule_zeroed]

/-- A manifest is read from a document whatever its numbers are. -/
lemma ofJson_zeroed (document : Json) :
    ofJson document.zeroed =
      (ofJson document).map fun m => { m with document := document.zeroed } := by
  simp only [ofJson, fields?_zeroed]
  cases document.fields? with
  | none => rfl
  | some fields =>
    simp only [Option.map_some, lookup_zeroed, readParameters_zeroed,
      readSection_zeroed readTextRule_zeroed, readSection_zeroed readFlagRule_zeroed,
      readSection_zeroed readBuilder_zeroed]
    cases readParameters (fields.lookup parametersKey) with
    | error e => rfl
    | ok parameters =>
      cases readSection variablesKey (fields.lookup variablesKey) readTextRule with
      | error e => rfl
      | ok tokens =>
        cases readSection excludesKey (fields.lookup excludesKey) readFlagRule with
        | error e => rfl
        | ok excludes =>
          cases readSection buildersKey (fields.lookup buildersKey) readBuilder with
          | error e => rfl
          | ok builders => rfl

/-- A manifest keeps the document that it was read from. -/
lemma document_of_ofJson {document : Json} {manifest : Manifest}
    (h : ofJson document = .ok manifest) : manifest.document = document := by
  rw [ofJson] at h
  split at h
  · cases h
  · obtain ⟨_, _, h⟩ := Result.bind_eq_ok.1 h
    obtain ⟨_, _, h⟩ := Result.bind_eq_ok.1 h
    obtain ⟨_, _, h⟩ := Result.bind_eq_ok.1 h
    obtain ⟨_, _, h⟩ := Result.bind_eq_ok.1 h
    cases h
    rfl

/-- Documents that differ only in numbers are read as manifests that differ only in these. -/
lemma ofJson_congr {document document' : Json} (hsame : document'.zeroed = document.zeroed)
    {manifest : Manifest} (h : ofJson document = .ok manifest) :
    ofJson document' = .ok { manifest with document := document' } := by
  have hzeroed := ofJson_zeroed document
  rw [← hsame, ofJson_zeroed document', h] at hzeroed
  obtain ⟨manifest', h', hfields⟩ := Result.map_eq_ok.1 hzeroed
  have hdocument := document_of_ofJson h'
  cases manifest
  cases manifest'
  cases hdocument
  simp only [Manifest.mk.injEq] at hfields
  obtain ⟨rfl, rfl, rfl, rfl, _⟩ := hfields
  exact h'

end Manifest

end ConfigPack
