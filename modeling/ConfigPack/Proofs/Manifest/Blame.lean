import ConfigPack.Proofs.Json.Path
import ConfigPack.Proofs.Manifest.Form

/-!
# First faults of expressions

The checks of a node have an order, and an operand that is a node is checked as a whole in its turn.
So a value that is no form of an expression has a first fault: operands lead to a node in it, past
nothing that is not well-formed, and there a field, or the node as a whole, breaks a rule.  A
reading reports this fault, and names it by the keys that lead to it from wherever the value stands
(`readExpr_blames_first_fault`).
-/

namespace ConfigPack.Manifest

/-! ## Parts of nodes -/

/-- One of the two operands of a node. -/
inductive Side where
  | left
  | right

/-- The name of an operand in a document. -/
def Side.key : Side → String
  | left => "a"
  | right => "b"

/-- A field of a node. -/
inductive Part where
  | type
  | operand (side : Side)
  | result

/-- The name of a field in a document. -/
def Part.key : Part → String
  | type => "type"
  | operand side => side.key
  | result => "result"

/-- The fields that are checked before a field. -/
def Part.before : Part → List Part
  | type => []
  | operand .left => [type]
  | operand .right => [type, operand .left]
  | result => [type, operand .left, operand .right]

/-- All fields of a node; the rules of its type are checked behind them. -/
def Part.all : List Part := [type, operand .left, operand .right, result]

/-- A field of a node is as all nodes have it. -/
def Part.WellFormed (node : Json) : Part → Prop
  | type => ∃ word, node.field? "type" = some (.string word)
  | operand side => ∃ value op, node.field? side.key = some value ∧ Operand.Form value op
  | result => ∃ outcome, Outcome.Form (node.field? "result") outcome

/-- Some fields of a node are as all nodes have them. -/
def Cleared (node : Json) (parts : List Part) : Prop := ∀ part ∈ parts, part.WellFormed node

/-- A value of a kind that operands have. -/
def IsOperandKind (value : Json) : Prop :=
  (∃ s, value = .string s) ∨ (∃ b, value = .bool b) ∨ ∃ fields, value = .object fields

/-- A word that names a type of expressions. -/
def IsExprType (word : String) : Prop :=
  (∃ comparison, word = Comparison.word comparison) ∨ word = "format" ∨ word = "$or" ∨ word = "or"

/-! ## Faults -/

/-- `Flawed node part flaw`: a part of a node, or the node as a whole, has a flaw, and all that is
checked before is well-formed. -/
inductive Flawed : Json → Option Part → Flaw → Prop
  | notObject {node} : (∀ fields, node ≠ .object fields) → Flawed node none .expressionNotObject
  | type {fields} :
    (∀ word, (Json.object fields).field? "type" ≠ some (.string word)) →
    Flawed (.object fields) (some .type) .notText
  | missing {node side} :
    Cleared node (Part.operand side).before → node.field? side.key = none →
    Flawed node (some (.operand side)) .missing
  | operand {node side value} :
    Cleared node (Part.operand side).before → node.field? side.key = some value →
    ¬ IsOperandKind value → Flawed node (some (.operand side)) .badOperand
  | outcome {node} :
    Cleared node Part.result.before → (∀ outcome, ¬ Outcome.Form (node.field? "result") outcome) →
    Flawed node (some .result) .badOutcome
  | format {node} :
    Cleared node Part.all → node.field? "type" = some (.string "format") →
    (∀ s, node.field? "result" ≠ some (.string s)) → Flawed node (some .result) .formatOutcome
  | either {node word value} :
    Cleared node Part.all → node.field? "type" = some (.string word) → word = "$or" ∨ word = "or" →
    node.field? "result" = some value → value ≠ .null → Flawed node (some .result) .eitherOutcome
  | unknown {node word} :
    Cleared node Part.all → node.field? "type" = some (.string word) → ¬ IsExprType word →
    Flawed node (some .type) (.unknownExpression word)

/-- `Descends value sides node`: operands lead from a value to a node in it, through objects alone
and past nothing that is not well-formed. -/
inductive Descends : Json → List Side → Json → Prop
  | here {node} : Descends node [] node
  | into {value side fields sides node} :
    Cleared value (Part.operand side).before →
    value.field? side.key = some (.object fields) →
    Descends (.object fields) sides node → Descends value (side :: sides) node

/-- The first fault of a value: the operands that lead to it, the part at fault, and its flaw. -/
def FirstFault (value : Json) (sides : List Side) (part : Option Part) (flaw : Flaw) : Prop :=
  ∃ node, Descends value sides node ∧ Flawed node part flaw

/-- The names that lead to a fault. -/
def trail (sides : List Side) (part : Option Part) : List String :=
  sides.map Side.key ++ part.toList.map Part.key

/-- The place that names lead to from a place. -/
def along (place : String) (names : List String) : String := names.foldl within place

/-- What the rule behind a flaw of an expression asks of the value, if any, at the place of the
fault. -/
def Flaw.Asks : Flaw → Option Json → Prop
  | .expressionNotObject, found => ∃ fields, found = some (.object fields)
  | .notText, found => ∃ s, found = some (.string s)
  | .missing, found => found ≠ none
  | .badOperand, found => ∃ value, found = some value ∧ IsOperandKind value
  | .badOutcome, found => ∃ outcome, Outcome.Form found outcome
  | .formatOutcome, found => ∃ s, found = some (.string s)
  | .eitherOutcome, found => found = none ∨ found = some .null
  | .unknownExpression _, found => ∃ word, found = some (.string word) ∧ IsExprType word
  | _, _ => True

variable {value node : Json} {fields : List (String × Json)} {place name : String}
  {sides : List Side} {side : Side} {part : Option Part} {flaw : Flaw} {fault : Fault}

/-- Parts are cleared when the first one is well formed and the others are cleared. -/
lemma cleared_cons {first : Part} {parts : List Part} :
    Cleared node (first :: parts) ↔ first.WellFormed node ∧ Cleared node parts :=
  List.forall_mem_cons

/-- No parts are always cleared. -/
lemma cleared_nil (node : Json) : Cleared node [] := by
  intro part hpart
  cases hpart

/-! ## What is found at the place of a fault -/

/-- A path that goes on from a node is that path from the node. -/
lemma Descends.valueAt? (h : Descends value sides node) (path : List String) :
    value.valueAt? (sides.map Side.key ++ path) = node.valueAt? path := by
  induction h with
  | here => rfl
  | into _ hfield _ ih =>
    rw [List.map_cons, List.cons_append, Json.valueAt?_cons_of_some hfield, ih]

/-- What is found at a field. -/
lemma valueAt?_part (node : Json) (part : Part) :
    node.valueAt? ((some part).toList.map Part.key) = node.field? part.key := by
  rw [Option.toList_some, List.map_singleton]
  cases hfield : node.field? part.key with
  | none => rw [Json.valueAt?_cons_of_none hfield]
  | some value => rw [Json.valueAt?_cons_of_some hfield, Json.valueAt?]

/-- A part that is at fault is not what the rule asks for. -/
lemma Flawed.not_asks (h : Flawed node part flaw) :
    ¬ flaw.Asks (node.valueAt? (part.toList.map Part.key)) := by
  cases h with
  | notObject hnot =>
    rintro ⟨fields, hfields⟩
    exact hnot fields (Option.some.inj hfields)
  | type hnot =>
    rw [valueAt?_part]
    rintro ⟨word, hword⟩
    exact hnot word hword
  | missing _ hnone =>
    rw [valueAt?_part]
    exact fun hne => hne hnone
  | operand _ hvalue hnot =>
    rw [valueAt?_part]
    rintro ⟨value, hfound, hkind⟩
    have hsame := hfound.symm.trans hvalue
    exact hnot (Option.some.inj hsame ▸ hkind)
  | outcome _ hnot =>
    rw [valueAt?_part]
    rintro ⟨outcome, houtcome⟩
    exact hnot outcome houtcome
  | format _ _ hnot =>
    rw [valueAt?_part]
    rintro ⟨s, hs⟩
    exact hnot s hs
  | either _ _ _ hvalue hnull =>
    rw [valueAt?_part]
    rintro (hfound | hfound)
    · exact absurd (hvalue.symm.trans hfound) (by simp)
    · exact hnull (Option.some.inj (hvalue.symm.trans hfound))
  | unknown _ htype hnot =>
    rw [valueAt?_part]
    rintro ⟨word, hfound, hword⟩
    cases hfound.symm.trans htype
    exact hnot hword

/-- The part with the first fault is not as it is asked to be. -/
lemma FirstFault.not_asks (h : FirstFault value sides part flaw) :
    ¬ flaw.Asks (value.valueAt? (trail sides part)) := by
  obtain ⟨node, hdescends, hflawed⟩ := h
  rw [trail, hdescends.valueAt?]
  exact hflawed.not_asks

/-! ## Places -/

/-- A place is written in front of the names that lead on from it. -/
lemma along_append (place : String) (names : List String) :
    along place names = place ++ along "" names := by
  induction names generalizing place with
  | nil => simp [along]
  | cons name names ih =>
    have hinner : along place (name :: names) = along (within place name) names := rfl
    have houter : along "" (name :: names) = along (within "" name) names := rfl
    rw [hinner, houter, ih (within place name), ih (within "" name)]
    simp [within, String.append_assoc]

/-- Names that lead to one place lead to one place from anywhere else. -/
lemma along_eq_iff {names names' : List String} (place place' : String) :
    along place names = along place names' ↔ along place' names = along place' names' := by
  have hbehind : ∀ front,
      along front names = along front names' ↔ along "" names = along "" names' := by
    intro front
    rw [along_append front, along_append front names', ← String.toList_inj, String.toList_append,
      String.toList_append, List.append_cancel_left_eq, String.toList_inj]
  rw [hbehind place, hbehind place']

/-! ## Readings that fail -/

/-- A reading fails at the first fault of a value. -/
def Blamed (value : Json) (place : String) (fault : Fault) : Prop :=
  ∃ sides part,
    FirstFault value sides part fault.flaw ∧ fault.place = along place (trail sides part)

/-- A flaw of a part is blamed on that part. -/
lemma Flawed.blamed (h : Flawed node part flaw) (place : String) :
    Blamed node place ⟨along place (part.toList.map Part.key), flaw⟩ :=
  ⟨[], part, ⟨node, .here, h⟩, rfl⟩

/-- What is blamed in an operand is blamed in the node, whose parts in front of the operand are
cleared. -/
lemma Blamed.into (hcleared : Cleared value (Part.operand side).before)
    (hfield : value.field? side.key = some (.object fields))
    (h : Blamed (.object fields) (within place side.key) fault) : Blamed value place fault := by
  obtain ⟨sides, part, ⟨node, hdescends, hflawed⟩, hplace⟩ := h
  exact ⟨side :: sides, part, ⟨node, .into hcleared hfield hdescends, hflawed⟩, hplace⟩

/-- Operands are read from the fields of their names. -/
lemma readNamed_operandReaders (fields : List (String × Json)) (place name : String) :
    readNamed (operandReaders fields) place name =
      match fields.lookup name with
      | some value => readOperand value (within place name)
      | none => .error ⟨within place name, .missing⟩ := by
  induction fields with
  | nil => rfl
  | cons field rest ih =>
    obtain ⟨first, value⟩ := field
    rw [readNamed] at ih ⊢
    rw [operandReaders, List.lookup_cons, List.lookup_cons]
    cases name == first with
    | true => rfl
    | false => exact ih

/-- An outcome is refused for one reason only. -/
lemma readOutcome_error (h : readOutcome fields place = .error fault) :
    fault = ⟨place, .badOutcome⟩ ∧ ∀ outcome, ¬ Outcome.Form (fields.lookup "result") outcome := by
  refine ⟨?_, fun outcome hform => ?_⟩
  · rw [readOutcome] at h
    split at h
    all_goals cases h
    rfl
  · rw [readOutcome_iff.2 hform] at h
    cases h

/-- An operand that cannot be read is missing, of another kind, or a node with a fault in it. -/
lemma blamed_of_operand (hcleared : Cleared (.object fields) (Part.operand side).before)
    (hnested : ∀ inner, fields.lookup side.key = some (.object inner) → ∀ place fault,
      readExpr (.object inner) place = .error fault → Blamed (.object inner) place fault)
    (h : readNamed (operandReaders fields) place side.key = .error fault) :
    Blamed (.object fields) place fault := by
  rw [readNamed_operandReaders] at h
  cases hlookup : fields.lookup side.key with
  | none =>
    rw [hlookup] at h
    cases h
    exact (Flawed.missing hcleared hlookup).blamed place
  | some value =>
    rw [hlookup] at h
    cases value with
    | object inner =>
      have hread : readExpr (.object inner) (within place side.key) = .error fault := by
        rcases hnode : readNode inner (operandReaders inner) (within place side.key) with e | node
        · simp only [readOperand, hnode] at h
          cases h
          exact hnode
        · simp only [readOperand, hnode] at h
          cases h
      exact (hnested inner hlookup _ _ hread).into hcleared hlookup
    | string s => cases h
    | bool b => cases h
    | _ =>
      cases h
      exact (Flawed.operand hcleared hlookup (by simp [IsOperandKind])).blamed place

/-- A choice that declares an outcome. -/
lemma blamed_of_outcome {word : String} {outcome : Outcome} (hword : word = "$or" ∨ word = "or")
    (hcleared : Cleared node Part.all) (htype : node.field? "type" = some (.string word))
    (houtcome : Outcome.Form (node.field? "result") (some outcome)) (place : String) :
    Blamed node place ⟨within place "result", .eitherOutcome⟩ := by
  cases hresult : node.field? "result" with
  | none =>
    rw [hresult] at houtcome
    cases houtcome
  | some value =>
    refine (Flawed.either hcleared htype hword hresult ?_).blamed place
    rintro rfl
    rw [hresult] at houtcome
    cases houtcome

/-- A node of well-formed parts that cannot be made breaks a rule of its type. -/
lemma blamed_of_makeExpr {word : String} {a b : Operand} {outcome : Option Outcome}
    (hcleared : Cleared node Part.all) (htype : node.field? "type" = some (.string word))
    (houtcome : Outcome.Form (node.field? "result") outcome)
    (h : makeExpr word a b outcome place = .error fault) : Blamed node place fault := by
  unfold makeExpr at h
  split at h
  · cases h
  · cases h
  · cases h
  · split at h
    · cases h
    next hnot =>
      cases h
      refine (Flawed.format hcleared htype fun s hs => ?_).blamed place
      rw [hs] at houtcome
      cases houtcome
      exact hnot s rfl
  · split at h
    · cases h
    next o =>
      cases h
      exact blamed_of_outcome (.inl rfl) hcleared htype houtcome place
  · split at h
    · cases h
    next o =>
      cases h
      exact blamed_of_outcome (.inr rfl) hcleared htype houtcome place
  next hmatch hcontain hnot hformat heither hor =>
    cases h
    refine (Flawed.unknown hcleared htype ?_).blamed place
    rintro (⟨comparison, rfl⟩ | rfl | rfl | rfl)
    · cases comparison
      · exact hmatch rfl
      · exact hcontain rfl
      · exact hnot rfl
    · exact hformat rfl
    · exact heither rfl
    · exact hor rfl

/-- The parts of a node are checked in their order, each when those before it are well-formed. -/
lemma blamed_of_readNode
    (hnested : ∀ name inner, fields.lookup name = some (.object inner) → ∀ place fault,
      readExpr (.object inner) place = .error fault → Blamed (.object inner) place fault)
    (h : readNode fields (operandReaders fields) place = .error fault) :
    Blamed (.object fields) place fault := by
  -- what has been read is cleared, so each check adds one part to what is cleared before it
  have hoperand : ∀ {name op}, readNamed (operandReaders fields) place name = .ok op →
      ∃ value op, (Json.object fields).field? name = some value ∧ Operand.Form value op := by
    intro name op hop
    obtain ⟨value, hlookup, hform⟩ := readNamed_iff.1 hop
    exact ⟨value, op, hlookup, hform⟩
  rw [readNode] at h
  split at h
  next hnone =>
    cases h
    refine (Flawed.type fun word hword => ?_).blamed place
    rw [textField?_eq_some.2 hword] at hnone
    cases hnone
  next word hword =>
    have htype : (Json.object fields).field? "type" = some (.string word) :=
      textField?_eq_some.1 hword
    have hbeforeLeft : Cleared (.object fields) (Part.operand .left).before :=
      cleared_cons.2 ⟨⟨word, htype⟩, cleared_nil _⟩
    rcases Result.bind_eq_error.1 h with hleft | ⟨a, ha, h⟩
    · exact blamed_of_operand hbeforeLeft (fun inner => hnested _ inner) hleft
    have hbeforeRight : Cleared (.object fields) (Part.operand .right).before :=
      cleared_cons.2 ⟨⟨word, htype⟩, cleared_cons.2 ⟨hoperand ha, cleared_nil _⟩⟩
    rcases Result.bind_eq_error.1 h with hright | ⟨b, hb, h⟩
    · exact blamed_of_operand hbeforeRight (fun inner => hnested _ inner) hright
    have hbeforeResult : Cleared (.object fields) Part.result.before :=
      cleared_cons.2 ⟨⟨word, htype⟩,
        cleared_cons.2 ⟨hoperand ha, cleared_cons.2 ⟨hoperand hb, cleared_nil _⟩⟩⟩
    rcases Result.bind_eq_error.1 h with hresult | ⟨outcome, houtcome, h⟩
    · obtain ⟨rfl, hnot⟩ := readOutcome_error hresult
      exact (Flawed.outcome hbeforeResult hnot).blamed place
    have hform : Outcome.Form ((Json.object fields).field? "result") outcome :=
      readOutcome_iff.1 houtcome
    have hall : Cleared (.object fields) Part.all :=
      cleared_cons.2 ⟨⟨word, htype⟩, cleared_cons.2 ⟨hoperand ha,
        cleared_cons.2 ⟨hoperand hb, cleared_cons.2 ⟨⟨outcome, hform⟩, cleared_nil _⟩⟩⟩⟩
    exact blamed_of_makeExpr hall htype hform h

/-- The nodes in a node are read as it is itself. -/
lemma blamed_of_readExpr : ∀ {value : Json} {place : String} {fault : Fault},
    readExpr value place = .error fault → Blamed value place fault
  | .object fields, _, _, h => by
    refine blamed_of_readNode (fun name inner hlookup place fault hinner => ?_) h
    have hsmaller : sizeOf inner < sizeOf fields := by
      have hmember := List.sizeOf_lt_of_mem (Json.mem_of_lookup hlookup)
      simp only [Prod.mk.sizeOf_spec, Json.object.sizeOf_spec] at hmember
      omega
    exact blamed_of_readExpr hinner
  | .null, _, _, h | .bool _, _, _, h | .number _, _, _, h | .string _, _, _, h
  | .array _, _, _, h => by
    cases h
    exact (Flawed.notObject (by simp)).blamed _
termination_by value => sizeOf value

/-! ## Faults that are found -/

/-- A node whose type is cleared is an object. -/
lemma Cleared.object {parts : List Part} (h : Cleared node parts) (htype : .type ∈ parts) :
    ∃ fields, node = .object fields := by
  obtain ⟨word, hword⟩ := h _ htype
  exact Json.object_of_field? hword

/-- The type is checked before both operands. -/
lemma type_mem_before (side : Side) : .type ∈ (Part.operand side).before := by
  cases side <;> simp [Part.before]

/-- Behind a well-formed type the operands are read, then the outcome, then the node is made. -/
lemma readNode_of_type {word : String} (htype : fields.lookup "type" = some (.string word)) :
    readNode fields (operandReaders fields) place = (do
      let a ← readNamed (operandReaders fields) place "a"
      let b ← readNamed (operandReaders fields) place "b"
      let outcome ← readOutcome fields (within place "result")
      makeExpr word a b outcome place) := by
  rw [readNode, textField?_eq_some.2 htype]

/-- An operand that is well-formed is read. -/
lemma exists_readNamed (h : (Part.operand side).WellFormed (.object fields)) (place : String) :
    ∃ op, readNamed (operandReaders fields) place side.key = .ok op := by
  obtain ⟨value, op, hvalue, hform⟩ := h
  exact ⟨op, readNamed_iff.2 ⟨value, hvalue, hform⟩⟩

/-- A node fails with the first of its operands that cannot be read. -/
lemma readNode_operand (hcleared : Cleared (.object fields) (Part.operand side).before)
    (h : readNamed (operandReaders fields) place side.key = .error fault) :
    readNode fields (operandReaders fields) place = .error fault := by
  cases side with
  | left =>
    obtain ⟨⟨word, htype⟩, _⟩ := cleared_cons.1 hcleared
    have ha : readNamed (operandReaders fields) place "a" = .error fault := h
    rw [readNode_of_type htype, ha]
    rfl
  | right =>
    obtain ⟨⟨word, htype⟩, hcleared⟩ := cleared_cons.1 hcleared
    obtain ⟨hleft, _⟩ := cleared_cons.1 hcleared
    obtain ⟨a, ha⟩ := exists_readNamed hleft place
    have ha : readNamed (operandReaders fields) place "a" = .ok a := ha
    have hb : readNamed (operandReaders fields) place "b" = .error fault := h
    rw [readNode_of_type htype, ha, hb]
    rfl

/-- A node whose operands are well-formed is made of them and of the outcome. -/
lemma readNode_operands {word : String} (hcleared : Cleared (.object fields) Part.result.before)
    (htype : fields.lookup "type" = some (.string word)) (place : String) :
    ∃ a b, readNode fields (operandReaders fields) place =
      readOutcome fields (within place "result") >>= fun outcome =>
        makeExpr word a b outcome place := by
  obtain ⟨_, hcleared⟩ := cleared_cons.1 hcleared
  obtain ⟨hleft, hcleared⟩ := cleared_cons.1 hcleared
  obtain ⟨hright, _⟩ := cleared_cons.1 hcleared
  obtain ⟨a, ha⟩ := exists_readNamed hleft place
  obtain ⟨b, hb⟩ := exists_readNamed hright place
  have ha : readNamed (operandReaders fields) place "a" = .ok a := ha
  have hb : readNamed (operandReaders fields) place "b" = .ok b := hb
  refine ⟨a, b, ?_⟩
  rw [readNode_of_type htype, ha, hb]
  rfl

/-- A node whose fields are well-formed is made by the rules of its type. -/
lemma readNode_rules {word : String} (hcleared : Cleared (.object fields) Part.all)
    (htype : fields.lookup "type" = some (.string word)) (place : String) :
    ∃ a b outcome, Outcome.Form (fields.lookup "result") outcome ∧
      readNode fields (operandReaders fields) place = makeExpr word a b outcome place := by
  have hsplit : Part.all = Part.result.before ++ [.result] := rfl
  have hbefore : Cleared (.object fields) Part.result.before := by
    intro part hpart
    exact hcleared part (hsplit ▸ List.mem_append_left _ hpart)
  obtain ⟨outcome, hform⟩ := hcleared .result (by simp [Part.all])
  obtain ⟨a, b, hread⟩ := readNode_operands hbefore htype place
  have houtcome : readOutcome fields (within place "result") = .ok outcome :=
    readOutcome_iff.2 hform
  refine ⟨a, b, outcome, hform, ?_⟩
  rw [hread, houtcome]
  rfl

/-- A format without a template is refused for its outcome. -/
lemma makeExpr_format {a b : Operand} {outcome : Option Outcome}
    (hnot : ∀ s, outcome ≠ some (.text s)) (place : String) :
    makeExpr "format" a b outcome place = .error ⟨within place "result", .formatOutcome⟩ := by
  rcases outcome with _ | s | _
  · rfl
  · exact absurd rfl (hnot s)
  · rfl

/-- A choice with an outcome is refused for it. -/
lemma makeExpr_either {word : String} {a b : Operand} (hword : word = "$or" ∨ word = "or")
    (outcome : Outcome) (place : String) :
    makeExpr word a b (some outcome) place = .error ⟨within place "result", .eitherOutcome⟩ := by
  rcases hword with rfl | rfl <;> rfl

/-- A node with an unknown word is refused for its type. -/
lemma makeExpr_unknown {word : String} {a b : Operand} {outcome : Option Outcome}
    (hword : ¬ IsExprType word) (place : String) :
    makeExpr word a b outcome place = .error ⟨within place "type", .unknownExpression word⟩ := by
  unfold makeExpr
  split
  · exact absurd (.inl ⟨.equal, rfl⟩) hword
  · exact absurd (.inl ⟨.contains, rfl⟩) hword
  · exact absurd (.inl ⟨.differs, rfl⟩) hword
  · exact absurd (.inr (.inl rfl)) hword
  · exact absurd (.inr (.inr (.inl rfl))) hword
  · exact absurd (.inr (.inr (.inr rfl))) hword
  · rfl

/-- A flaw of a node is what its reading fails with. -/
lemma Flawed.readExpr (h : Flawed node part flaw) (place : String) :
    readExpr node place = .error ⟨along place (part.toList.map Part.key), flaw⟩ := by
  -- one case for each flaw, in the order of the checks; what comes before a flaw is cleared
  cases h with
  | notObject hnot =>
    cases node with
    | object fields => exact absurd rfl (hnot fields)
    | _ => rfl
  | @type fields hnot =>
    have hnone : textField? fields "type" = none := by
      rw [Option.eq_none_iff_forall_ne_some]
      intro word hword
      exact hnot word (textField?_eq_some.1 hword)
    rw [Manifest.readExpr, readNode, hnone]
    rfl
  | missing hcleared hnone =>
    obtain ⟨fields, rfl⟩ := hcleared.object (type_mem_before _)
    refine readNode_operand hcleared ?_
    have hlookup : fields.lookup _ = none := hnone
    rw [readNamed_operandReaders, hlookup]
    rfl
  | @operand _ _ value hcleared hvalue hnot =>
    obtain ⟨fields, rfl⟩ := hcleared.object (type_mem_before _)
    refine readNode_operand hcleared ?_
    have hlookup : fields.lookup _ = some value := hvalue
    rw [readNamed_operandReaders, hlookup]
    cases value with
    | string s => exact absurd (.inl ⟨s, rfl⟩) hnot
    | bool b => exact absurd (.inr (.inl ⟨b, rfl⟩)) hnot
    | object inner => exact absurd (.inr (.inr ⟨inner, rfl⟩)) hnot
    | _ => rfl
  | outcome hcleared hnot =>
    obtain ⟨fields, rfl⟩ := hcleared.object List.mem_cons_self
    obtain ⟨word, htype⟩ := hcleared .type List.mem_cons_self
    obtain ⟨a, b, hread⟩ := readNode_operands hcleared htype place
    rw [Manifest.readExpr, hread]
    cases houtcome : readOutcome fields (within place "result") with
    | ok outcome => exact absurd (readOutcome_iff.1 houtcome) (hnot outcome)
    | error fault =>
      obtain ⟨rfl, _⟩ := readOutcome_error houtcome
      rfl
  | format hcleared htype hnot =>
    obtain ⟨fields, rfl⟩ := hcleared.object List.mem_cons_self
    obtain ⟨a, b, outcome, hform, hread⟩ := readNode_rules hcleared htype place
    rw [Manifest.readExpr, hread]
    refine makeExpr_format (fun s hs => ?_) place
    subst hs
    cases hresult : fields.lookup "result" with
    | none =>
      rw [hresult] at hform
      cases hform
    | some value =>
      rw [hresult] at hform
      cases hform
      exact hnot s hresult
  | @either _ word value hcleared htype hword hvalue hnull =>
    obtain ⟨fields, rfl⟩ := hcleared.object List.mem_cons_self
    obtain ⟨a, b, outcome, hform, hread⟩ := readNode_rules hcleared htype place
    have hresult : fields.lookup "result" = some value := hvalue
    rw [Manifest.readExpr, hread]
    rw [hresult] at hform
    cases hform with
    | null => exact absurd rfl hnull
    | text => exact makeExpr_either hword _ place
    | yes => exact makeExpr_either hword _ place
  | unknown hcleared htype hword =>
    obtain ⟨fields, rfl⟩ := hcleared.object List.mem_cons_self
    obtain ⟨a, b, outcome, _, hread⟩ := readNode_rules hcleared htype place
    rw [Manifest.readExpr, hread]
    exact makeExpr_unknown hword place

/-- What a node fails with, the value that it stands in fails with. -/
lemma Descends.readExpr {path : List String} (h : Descends value sides node)
    (hnode : ∀ place, readExpr node place = .error ⟨along place path, flaw⟩) (place : String) :
    readExpr value place = .error ⟨along place (sides.map Side.key ++ path), flaw⟩ := by
  induction h generalizing place with
  | here => exact hnode place
  | @into value side inner sides node hcleared hfield _ ih =>
    obtain ⟨fields, rfl⟩ := hcleared.object (type_mem_before _)
    refine readNode_operand hcleared ?_
    have hlookup : fields.lookup side.key = some (.object inner) := hfield
    have hinner : readNode inner (operandReaders inner) (within place side.key) =
      .error ⟨along (within place side.key) (sides.map Side.key ++ path), flaw⟩ :=
        ih hnode (within place side.key)
    rw [readNamed_operandReaders, hlookup]
    simp only [readOperand, hinner]
    rfl

/-- A reading fails exactly with the first fault of a value. -/
lemma readExpr_error_iff : readExpr value place = .error fault ↔ Blamed value place fault := by
  refine ⟨blamed_of_readExpr, ?_⟩
  rintro ⟨sides, part, ⟨node, hdescends, hflawed⟩, hplace⟩
  obtain ⟨_, flaw⟩ := fault
  cases hplace
  exact hdescends.readExpr hflawed.readExpr place

/-- A reading fails exactly when a value is no form of an expression, and then with the first fault
of the value: it is named by the operands that lead to it, through nodes in which all that is
checked before is well-formed, and by the field at fault, if it is not a whole node; what is found
there, if anything, is not what the rule of the flaw asks for.  From another place the value is read
as the same expression, or fails with the same flaw at the same names behind that place. -/
theorem readExpr_blames_first_fault (value : Json) (place : String) :
    ((∃ fault, readExpr value place = .error fault) ↔ ¬ ∃ node, Expr.Form value node) ∧
    (∀ fault, readExpr value place = .error fault →
      ∃ sides part, FirstFault value sides part fault.flaw ∧
        fault.place = along place (trail sides part) ∧
        ¬ fault.flaw.Asks (value.valueAt? (trail sides part))) ∧
    (∀ sides part flaw, FirstFault value sides part flaw →
      readExpr value place = .error ⟨along place (trail sides part), flaw⟩) ∧
    ∀ place',
      (∀ node, readExpr value place' = .ok node ↔ readExpr value place = .ok node) ∧
      ∀ path flaw, readExpr value place' = .error ⟨along place' path, flaw⟩ ↔
        readExpr value place = .error ⟨along place path, flaw⟩ := by
  refine ⟨⟨?_, fun hnone => ?_⟩, fun fault hfault => ?_, fun sides part flaw hfirst => ?_,
    fun place' => ⟨fun node => ?_, fun path flaw => ?_⟩⟩
  · rintro ⟨fault, hfault⟩ ⟨node, hform⟩
    rw [readExpr_iff.2 hform] at hfault
    cases hfault
  · rcases hread : readExpr value place with fault | node
    · exact ⟨fault, rfl⟩
    · exact absurd ⟨node, readExpr_iff.1 hread⟩ hnone
  · obtain ⟨sides, part, hfirst, hplace⟩ := readExpr_error_iff.1 hfault
    exact ⟨sides, part, hfirst, hplace, hfirst.not_asks⟩
  · exact readExpr_error_iff.2 ⟨sides, part, hfirst, rfl⟩
  · rw [readExpr_iff, readExpr_iff]
  · rw [readExpr_error_iff, readExpr_error_iff]
    constructor
    · rintro ⟨sides, part, hfirst, hplace⟩
      exact ⟨sides, part, hfirst, (along_eq_iff place' place).1 hplace⟩
    · rintro ⟨sides, part, hfirst, hplace⟩
      exact ⟨sides, part, hfirst, (along_eq_iff place place').1 hplace⟩

/-- A node of no type. -/
def untypedValue : Json :=
  .object [("type", .string "xor"), ("a", .string "1"), ("b", .string "2")]

/-- A format that asks for a text as its result stands in a condition with a number as its second
operand, and a node of no type in the format. -/
def crowdedValue : Json :=
  .object [("type", .string "match"), ("b", .number (.int 7)),
    ("a", .object [("type", .string "format"), ("a", .string "x"), ("b", untypedValue),
      ("result", .bool true)])]

/-- Of several faults that of the innermost node is met first, under whatever place the reader
started. -/
theorem innermost_type_is_blamed :
    FirstFault crowdedValue [.left, .right] (some .type) (.unknownExpression "xor") ∧
      readExpr crowdedValue "excludesResolver.x" =
        .error ⟨"excludesResolver.x.a.b.type", .unknownExpression "xor"⟩ ∧
      readExpr crowdedValue "node" = .error ⟨"node.a.b.type", .unknownExpression "xor"⟩ ∧
      ∃ sides part, "node.a.b.type" = along "node" (trail sides part) ∧
        ¬ (Flaw.unknownExpression "xor").Asks (crowdedValue.valueAt? (trail sides part)) := by
  have houter : Cleared crowdedValue (Part.operand .left).before :=
    cleared_cons.2 ⟨⟨"match", rfl⟩, cleared_nil _⟩
  have hinner : Cleared untypedValue Part.all :=
    cleared_cons.2 ⟨⟨"xor", rfl⟩, cleared_cons.2 ⟨⟨_, _, rfl, .text⟩,
      cleared_cons.2 ⟨⟨_, _, rfl, .text⟩, cleared_cons.2 ⟨⟨none, .absent⟩, cleared_nil _⟩⟩⟩⟩
  have htype : ¬ IsExprType "xor" := by
    rintro (⟨comparison, h⟩ | h | h | h)
    · cases comparison <;> exact absurd h (by decide)
    all_goals exact absurd h (by decide)
  have hfirst :
      FirstFault crowdedValue [.left, .right] (some .type) (.unknownExpression "xor") := by
    refine ⟨untypedValue, .into houter rfl (.into ?_ rfl .here), .unknown hinner rfl htype⟩
    exact cleared_cons.2 ⟨⟨"format", rfl⟩, cleared_cons.2 ⟨⟨_, _, rfl, .text⟩, cleared_nil _⟩⟩
  obtain ⟨_, _, hreports, hanywhere⟩ :=
    readExpr_blames_first_fault crowdedValue "excludesResolver.x"
  have hfault : readExpr crowdedValue "excludesResolver.x" =
    .error ⟨"excludesResolver.x.a.b.type", .unknownExpression "xor"⟩ := hreports _ _ _ hfirst
  have hmoved : readExpr crowdedValue "node" = .error ⟨"node.a.b.type", .unknownExpression "xor"⟩ :=
    ((hanywhere "node").2 ["a", "b", "type"] _).2 hfault
  obtain ⟨_, hblames, _, _⟩ := readExpr_blames_first_fault crowdedValue "node"
  obtain ⟨sides, part, _, hplace, hasks⟩ := hblames _ hmoved
  exact ⟨hfirst, hfault, hmoved, sides, part, hplace, hasks⟩

end ConfigPack.Manifest
