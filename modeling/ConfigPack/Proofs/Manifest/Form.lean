import ConfigPack.Manifest.Grammar
import ConfigPack.Proofs.Result

/-!
# Forms of manifests

The forms say which documents stand for which parts of a manifest; the rules say which parts a
manifest may have.  A document is read as a manifest exactly when it is a form of it and the
manifest keeps the rules (`ofJson_iff`): no other document is accepted, and nothing is left out,
added or put in another order.
-/

namespace ConfigPack

/-! ## Forms -/

/-- A field that declares an outcome; null declares none. -/
inductive Outcome.Form : Option Json → Option Outcome → Prop
  | absent : Outcome.Form none none
  | null : Outcome.Form (some .null) none
  | text {s} : Outcome.Form (some (.string s)) (some (.text s))
  | yes : Outcome.Form (some (.bool true)) (some .yes)

/-- The node of a type: a condition on any outcome, a format of a text, or a choice, which has two
names and no outcome. -/
inductive Expr.OfType : String → Operand → Operand → Option Outcome → Expr → Prop
  | condition {comparison a b outcome} :
    Expr.OfType (Comparison.word comparison) a b outcome (.condition comparison a b outcome)
  | format {a b template} :
    Expr.OfType "format" a b (some (.text template)) (.format a b template)
  | either {word a b} : word = "$or" ∨ word = "or" → Expr.OfType word a b none (.either a b)

mutual

/-- An object with a type, two operands and what the type asks of the result. -/
inductive Expr.Form : Json → Expr → Prop
  | node {value left right word a b outcome node} :
    Json.field? "type" value = some (.string word) →
    Json.field? "a" value = some left → Operand.Form left a →
    Json.field? "b" value = some right → Operand.Form right b →
    Outcome.Form (Json.field? "result" value) outcome →
    Expr.OfType word a b outcome node → Expr.Form value node

/-- A text, a boolean or an expression. -/
inductive Operand.Form : Json → Operand → Prop
  | text {s} : Operand.Form (.string s) (.literal (.text s))
  | bool {b} : Operand.Form (.bool b) (.literal (.bool b))
  | nested {value node} : Expr.Form value node → Operand.Form value (.nested node)

end

/-- A scalar of the kind of the rule, or an expression. -/
inductive Rule.Form {α : Type} (scalar : α → Json) : Json → Rule α → Prop
  | literal {a} : Rule.Form scalar (scalar a) (.literal a)
  | compute {value node} : Expr.Form value node → Rule.Form scalar value (.compute node)

/-- The word that names a kind of question in a document. -/
def QuestionKind.word : QuestionKind → String
  | text => "text"
  | confirm => "confirm"

/-- A field that offers an answer; null offers none. -/
inductive Value.Offer : Option Json → Option Value → Prop
  | absent : Value.Offer none none
  | null : Value.Offer (some .null) none
  | text {s} : Value.Offer (some (.string s)) (some (.text s))
  | bool {b} : Value.Offer (some (.bool b)) (some (.bool b))

/-- A question with its fields, or an expression. -/
inductive ParameterRule.Form : Json → ParameterRule → Prop
  | ask {value question} :
    Json.field? "operation" value = some (.string "prompt") →
    Json.field? "type" value = some (.string (QuestionKind.word question.kind)) →
    Json.field? "label" value = some (.string question.label) →
    Value.Offer (Json.field? "initial" value) question.default →
    ParameterRule.Form value (.ask question)
  | compute {value inner node} :
    Json.field? "operation" value = some (.string "resolvable") →
    Json.field? "resolvable" value = some inner → Expr.Form inner node →
    ParameterRule.Form value (.compute node)

/-- The form of a parameter: its identifier, and its rule under `resolver`. -/
structure Parameter.Form (value : Json) (p : Parameter) : Prop where
  id : value.field? "id" = some (.string p.id)
  rule : ∃ inner, value.field? "resolver" = some inner ∧ ParameterRule.Form inner p.rule

/-- The form of a file that is built: its path, and the rule of its content. -/
structure BuilderEntry.Form (value : Json) (b : BuilderEntry) : Prop where
  path : value.field? "filePath" = some (.string b.path)
  content : ∃ inner, value.field? "content" = some inner ∧ Rule.Form .string inner b.content

/-- An array whose items are parts of some form, in their order. -/
inductive Json.Items {α : Type} (Form : Json → α → Prop) : Option Json → List α → Prop
  | absent : Json.Items Form none []
  | null : Json.Items Form (some .null) []
  | array {items parts} : List.Forall₂ Form items parts →
    Json.Items Form (some (.array items)) parts

/-- An object whose fields are parts of some form under their keys, in their order. -/
inductive Json.Section {α : Type} (Form : Json → α → Prop) :
    Option Json → List (String × α) → Prop
  | absent : Json.Section Form none []
  | null : Json.Section Form (some .null) []
  | object {fields entries} :
    List.Forall₂ (fun field entry => field.1 = entry.1 ∧ Form field.2 entry.2) fields entries →
    Json.Section Form (some (.object fields)) entries

/-- An object with the sections of a manifest. -/
structure Manifest.Form (document : Json) (manifest : Manifest) : Prop where
  object : ∃ fields, document = .object fields
  parameters : Json.Items Parameter.Form (document.field? Manifest.parametersKey)
    manifest.parameters
  tokens : Json.Section (Rule.Form .string) (document.field? Manifest.variablesKey) manifest.tokens
  excludes : Json.Section (Rule.Form .bool) (document.field? Manifest.excludesKey)
    manifest.excludes
  builders : Json.Section BuilderEntry.Form (document.field? Manifest.buildersKey)
    manifest.builders
  document : manifest.document = document

/-! ## Rules -/

/-- The answers that a kind of question expects. -/
def QuestionKind.Expects : QuestionKind → Value → Prop
  | text, .text _ => True
  | confirm, .bool _ => True
  | _, _ => False

/-- A question that offers no answer of another kind. -/
def ParameterRule.Valid : ParameterRule → Prop
  | ask question => ∀ value, question.default = some value → question.kind.Expects value
  | compute _ => True

/-- A rule that does not give a boolean for a condition that holds. -/
def Rule.GivesText : Rule String → Prop
  | compute (.condition _ _ _ outcome) => ∃ s, outcome = some (.text s)
  | _ => True

/-- A rule that is no format. -/
def Rule.GivesFlag : Rule Bool → Prop
  | compute (.format _ _ _) => False
  | _ => True

/-- What is asked of a file that is built. -/
structure BuilderEntry.Valid (b : BuilderEntry) : Prop where
  path : b.path ≠ ""
  content : b.content.GivesText

/-- Entries under keys that are not empty. -/
def EntriesValid {α : Type} (Valid : α → Prop) (entries : List (String × α)) : Prop :=
  ∀ e ∈ entries, e.1 ≠ "" ∧ Valid e.2

/-- The rules that a manifest keeps. -/
structure Manifest.Valid (manifest : Manifest) : Prop where
  parameters : ∀ p ∈ manifest.parameters, p.id ≠ "" ∧ p.rule.Valid
  ids : manifest.ids.Nodup
  tokens : EntriesValid Rule.GivesText manifest.tokens
  excludes : EntriesValid Rule.GivesFlag manifest.excludes
  builders : EntriesValid BuilderEntry.Valid manifest.builders

/-- What has a field is an object. -/
lemma Json.object_of_field? {value inner : Json} {name : String}
    (h : value.field? name = some inner) : ∃ fields, value = .object fields := by
  cases value with
  | object fields => exact ⟨fields, rfl⟩
  | _ => cases h

/-- Only objects have fields. -/
lemma Json.fields?_eq_some {value : Json} {fields : List (String × Json)} :
    value.fields? = some fields ↔ value = .object fields := by
  cases value with
  | object fields' => simp [Json.fields?]
  | _ => simp [Json.fields?]

/-- Only objects are forms of expressions. -/
lemma Expr.Form.object {value : Json} {node : Expr} (h : Expr.Form value node) :
    ∃ fields, value = .object fields := by
  cases h with
  | node htype => exact Json.object_of_field? htype

namespace Manifest

variable {fields : List (String × Json)} {place name : String}

/-- A field is a text when it holds one. -/
lemma textField?_eq_some {s : String} :
    textField? fields name = some s ↔ fields.lookup name = some (.string s) := by
  rw [textField?]
  cases fields.lookup name with
  | none => simp
  | some value => cases value <;> simp [Json.text?]

/-! ## Expressions -/

/-- An outcome is read from its forms and from nothing else. -/
lemma readOutcome_iff {outcome : Option Outcome} :
    readOutcome fields place = .ok outcome ↔ Outcome.Form (fields.lookup "result") outcome := by
  rw [readOutcome]
  constructor
  · intro h
    split at h
    next heq =>
      cases h
      rw [heq]
      exact .absent
    next heq =>
      cases h
      rw [heq]
      exact .null
    next heq =>
      cases h
      rw [heq]
      exact .text
    next heq =>
      cases h
      rw [heq]
      exact .yes
    next => cases h
  · intro h
    generalize fields.lookup "result" = part at h
    cases h <;> rfl

/-- A node is made of its parts when these fit the word of its type. -/
lemma makeExpr_iff {word : String} {a b : Operand} {outcome : Option Outcome} {node : Expr} :
    makeExpr word a b outcome place = .ok node ↔ Expr.OfType word a b outcome node := by
  constructor
  · intro h
    unfold makeExpr at h
    split at h
    · cases h
      exact @Expr.OfType.condition .equal a b outcome
    · cases h
      exact @Expr.OfType.condition .contains a b outcome
    · cases h
      exact @Expr.OfType.condition .differs a b outcome
    · split at h
      · cases h
        exact .format
      · cases h
    · split at h
      · cases h
        exact .either (.inl rfl)
      · cases h
    · split at h
      · cases h
        exact .either (.inr rfl)
      · cases h
    · cases h
  · intro h
    cases h with
    | @condition comparison => cases comparison <;> rfl
    | format => rfl
    | either hword => rcases hword with rfl | rfl <;> rfl

/-- A node is read from an object that has its form, given that operands are. -/
lemma readNode_iff {operands : List (String × OperandReader)} {node : Expr}
    (hoperands : ∀ name op, readNamed operands place name = .ok op ↔
      ∃ value, fields.lookup name = some value ∧ Operand.Form value op) :
    readNode fields operands place = .ok node ↔ Expr.Form (.object fields) node := by
  rw [readNode]
  constructor
  · intro h
    split at h
    · cases h
    next word hword =>
      obtain ⟨a, ha, h⟩ := Result.bind_eq_ok.1 h
      obtain ⟨b, hb, h⟩ := Result.bind_eq_ok.1 h
      obtain ⟨outcome, houtcome, h⟩ := Result.bind_eq_ok.1 h
      obtain ⟨left, hleft, ha⟩ := (hoperands "a" a).1 ha
      obtain ⟨right, hright, hb⟩ := (hoperands "b" b).1 hb
      exact .node (textField?_eq_some.1 hword) hleft ha hright hb (readOutcome_iff.1 houtcome)
        (makeExpr_iff.1 h)
  · intro h
    cases h with
    | @node _ left right word a b outcome _ htype hleft ha hright hb houtcome hnode =>
      rw [textField?_eq_some.2 htype]
      refine Result.bind_eq_ok.2 ⟨a, (hoperands "a" a).2 ⟨left, hleft, ha⟩, ?_⟩
      refine Result.bind_eq_ok.2 ⟨b, (hoperands "b" b).2 ⟨right, hright, hb⟩, ?_⟩
      exact Result.bind_eq_ok.2 ⟨outcome, readOutcome_iff.2 houtcome, makeExpr_iff.2 hnode⟩

-- operands are read through the list of all fields, so the fields are gone through one by one
mutual

/-- An operand is read from its forms and from nothing else. -/
lemma readOperand_iff : ∀ {value : Json} {place : String} {op : Operand},
    readOperand value place = .ok op ↔ Operand.Form value op
  | .string s, place, op => by
    constructor
    · intro h
      cases h
      exact .text
    · intro h
      cases h with
      | text => rfl
      | nested h =>
        cases h with
        | node htype => cases htype
  | .bool b, place, op => by
    constructor
    · intro h
      cases h
      exact .bool
    · intro h
      cases h with
      | bool => rfl
      | nested h =>
        cases h with
        | node htype => cases htype
  | .object fields, place, op => by
    rw [readOperand, Result.map_eq_ok]
    constructor
    · rintro ⟨node, hnode, rfl⟩
      exact .nested ((readNode_iff fun _ _ => readNamed_iff).1 hnode)
    · intro h
      cases h with
      | nested h => exact ⟨_, (readNode_iff fun _ _ => readNamed_iff).2 h, rfl⟩
  | .null, place, op | .number _, place, op | .array _, place, op => by
    -- what is neither a text, a truth value nor a node has no form
    constructor
    · intro h
      cases h
    · intro h
      cases h with
      | nested h =>
        cases h with
        | node htype => cases htype

/-- The operand of a name is read from the field of that name. -/
lemma readNamed_iff : ∀ {fields : List (String × Json)} {place name : String} {op : Operand},
    readNamed (operandReaders fields) place name = .ok op ↔
      ∃ value, fields.lookup name = some value ∧ Operand.Form value op
  | [], place, name, op => by
    constructor
    · intro h
      cases h
    · rintro ⟨_, h, _⟩
      cases h
  | (first, value) :: rest, place, name, op => by
    have hrest := @readNamed_iff rest place name op
    rw [readNamed] at hrest
    rw [readNamed, operandReaders, List.lookup_cons, List.lookup_cons]
    cases name == first with
    | true => simp [readOperand_iff]
    | false => exact hrest

end

/-- A node is read from its forms and from nothing else. -/
lemma readExpr_iff {value : Json} {node : Expr} :
    readExpr value place = .ok node ↔ Expr.Form value node := by
  cases value with
  | object fields => exact readNode_iff fun _ _ => readNamed_iff
  | _ =>
    constructor
    · intro h
      cases h
    · intro h
      cases h with
      | node htype => cases htype

/-! ## Parameters -/

/-- The kind of a question is told by its word. -/
lemma questionKind?_eq_some {word : Option String} {kind : QuestionKind} :
    questionKind? word = some kind ↔ word = some kind.word := by
  constructor
  · intro h
    unfold questionKind? at h
    split at h
    all_goals cases h
    · rfl
    · rfl
  · rintro rfl
    cases kind <;> rfl

/-- A default is read when it is offered and fits the kind of its question. -/
lemma readDefault_iff {kind : QuestionKind} {part? : Option Json} {default : Option Value} :
    readDefault kind part? place = .ok default ↔
      Value.Offer part? default ∧ ∀ value, default = some value → kind.Expects value := by
  constructor
  · intro h
    unfold readDefault at h
    split at h
    · cases h
      exact ⟨.absent, fun _ h => by cases h⟩
    · cases h
      exact ⟨.null, fun _ h => by cases h⟩
    · cases h
      refine ⟨.text, fun value hvalue => ?_⟩
      cases hvalue
      trivial
    · cases h
      refine ⟨.bool, fun value hvalue => ?_⟩
      cases hvalue
      trivial
    · cases h
    · cases h
  · rintro ⟨hoffer, hkind⟩
    cases hoffer with
    | absent => cases kind <;> rfl
    | null => cases kind <;> rfl
    | text =>
      cases kind with
      | text => rfl
      | confirm => cases hkind _ rfl
    | bool =>
      cases kind with
      | text => cases hkind _ rfl
      | confirm => rfl

/-- A question is read from its type, its label and its default. -/
lemma readQuestion_iff {question : Question} :
    readQuestion fields place = .ok question ↔
      fields.lookup "type" = some (.string question.kind.word) ∧
        fields.lookup "label" = some (.string question.label) ∧
        Value.Offer (fields.lookup "initial") question.default ∧
        ∀ value, question.default = some value → question.kind.Expects value := by
  constructor
  · intro h
    rw [readQuestion] at h
    split at h
    · cases h
    next kind hkind =>
      split at h
      · cases h
      next label hlabel =>
        obtain ⟨default, hdefault, h⟩ := Result.bind_eq_ok.1 h
        cases h
        have htype := textField?_eq_some.1 (questionKind?_eq_some.1 hkind)
        exact ⟨htype, textField?_eq_some.1 hlabel, readDefault_iff.1 hdefault⟩
  · rintro ⟨htype, hlabel, hdefault⟩
    have hkind := questionKind?_eq_some.2 (textField?_eq_some.2 htype)
    rw [readQuestion, hkind, textField?_eq_some.2 hlabel]
    exact Result.bind_eq_ok.2 ⟨question.default, readDefault_iff.2 hdefault, rfl⟩

/-- The rule of a parameter is read from its forms when it keeps the rules. -/
lemma readParameterRule_iff {part? : Option Json} {rule : ParameterRule} :
    readParameterRule part? place = .ok rule ↔
      (∃ value, part? = some value ∧ ParameterRule.Form value rule) ∧ rule.Valid := by
  constructor
  · intro h
    unfold readParameterRule at h
    split at h
    · cases h
    next fields hfields =>
      obtain ⟨value, rfl, hfields⟩ := Option.bind_eq_some_iff.1 hfields
      obtain rfl := Json.fields?_eq_some.1 hfields
      split at h
      next hoperation =>
        -- a default that the question does not allow is refused while it is read
        obtain ⟨question, hquestion, rfl⟩ := Result.map_eq_ok.1 h
        obtain ⟨htype, hlabel, hoffer, hexpects⟩ := readQuestion_iff.1 hquestion
        have hform : ParameterRule.Form (.object fields) (.ask question) :=
          .ask (textField?_eq_some.1 hoperation) htype hlabel hoffer
        exact ⟨⟨_, rfl, hform⟩, hexpects⟩
      next hoperation =>
        split at h
        next inner hinner =>
          obtain ⟨node, hnode, rfl⟩ := Result.map_eq_ok.1 h
          exact ⟨⟨_, rfl, .compute (textField?_eq_some.1 hoperation) hinner
            (readExpr_iff.1 hnode)⟩, trivial⟩
        · cases h
      · cases h
      · cases h
  · rintro ⟨⟨value, rfl, hform⟩, hvalid⟩
    cases hform with
    | @ask question hoperation htype hlabel hoffer =>
      obtain ⟨fields, rfl⟩ := Json.object_of_field? hoperation
      have hquestion : readQuestion fields place = .ok question :=
        readQuestion_iff.2 ⟨htype, hlabel, hoffer, hvalid⟩
      rw [readParameterRule, Option.bind_some, Json.fields?]
      simp only [textField?_eq_some.2 hoperation, hquestion]
      rfl
    | compute hoperation hinner hnode =>
      obtain ⟨fields, rfl⟩ := Json.object_of_field? hoperation
      have hlookup : fields.lookup "resolvable" = some _ := hinner
      rw [readParameterRule, Option.bind_some, Json.fields?]
      simp only [textField?_eq_some.2 hoperation, hlookup, readExpr_iff.2 hnode]
      rfl

/-- A parameter is read when its identifier is new and not empty. -/
lemma readParameter_iff {seen : List String} {value : Json} {p : Parameter} :
    readParameter seen value place = .ok p ↔
      Parameter.Form value p ∧ (p.id ≠ "" ∧ p.rule.Valid) ∧ p.id ∉ seen := by
  constructor
  · intro h
    rw [readParameter] at h
    split at h
    · cases h
    next fields hfields =>
      obtain rfl := Json.fields?_eq_some.1 hfields
      split at h
      · cases h
      next id hid =>
        obtain ⟨hid, hne⟩ := Option.filter_eq_some_iff.1 hid
        split at h
        · cases h
        next hfresh =>
          obtain ⟨rule, hrule, h⟩ := Result.bind_eq_ok.1 h
          cases h
          obtain ⟨hform, hvalid⟩ := readParameterRule_iff.1 hrule
          exact ⟨⟨textField?_eq_some.1 hid, hform⟩, ⟨by simpa using hne, hvalid⟩, hfresh⟩
  · rintro ⟨⟨hid, hrule⟩, ⟨hne, hvalid⟩, hfresh⟩
    obtain ⟨fields, rfl⟩ := Json.object_of_field? hid
    have hread : (textField? fields "id").filter (· ≠ "") = some p.id :=
      Option.filter_eq_some_iff.2 ⟨textField?_eq_some.2 hid, by simpa using hne⟩
    rw [readParameter, Json.fields?]
    simp only [hread, if_neg hfresh]
    exact Result.bind_eq_ok.2 ⟨p.rule, readParameterRule_iff.2 ⟨hrule, hvalid⟩, rfl⟩

/-- Parameters are read when each of them is and no two have one identifier. -/
lemma readParameterItems_iff {items : List Json} :
    ∀ {index : Nat} {seen : List String} {parameters : List Parameter},
      readParameterItems index seen items = .ok parameters ↔
        List.Forall₂ Parameter.Form items parameters ∧
          (∀ p ∈ parameters, (p.id ≠ "" ∧ p.rule.Valid) ∧ p.id ∉ seen) ∧
          (parameters.map Parameter.id).Nodup := by
  induction items with
  | nil =>
    intro index seen parameters
    constructor
    · intro h
      cases h
      simp
    · rintro ⟨hform, _⟩
      cases hform
      rfl
  | cons value rest ih =>
    intro index seen parameters
    constructor
    · intro h
      obtain ⟨p, hp, h⟩ := Result.bind_eq_ok.1 h
      obtain ⟨others, hothers, h⟩ := Result.bind_eq_ok.1 h
      cases h
      obtain ⟨hform, hvalid, hfresh⟩ := readParameter_iff.1 hp
      obtain ⟨hforms, hvalids, hids⟩ := ih.1 hothers
      refine ⟨.cons hform hforms, ?_, ?_⟩
      · rw [List.forall_mem_cons]
        refine ⟨⟨hvalid, hfresh⟩, fun q hq => ?_⟩
        exact ⟨(hvalids q hq).1, fun hm => (hvalids q hq).2 (List.mem_cons_of_mem _ hm)⟩
      · rw [List.map_cons, List.nodup_cons]
        refine ⟨fun hm => ?_, hids⟩
        obtain ⟨q, hq, hsame⟩ := List.mem_map.1 hm
        exact (hvalids q hq).2 (hsame ▸ List.mem_cons_self)
    · rintro ⟨hforms, hvalids, hids⟩
      cases hforms with
      | @cons _ p _ others hform hforms =>
        rw [List.forall_mem_cons] at hvalids
        rw [List.map_cons, List.nodup_cons] at hids
        refine Result.bind_eq_ok.2 ⟨p, readParameter_iff.2 ⟨hform, hvalids.1⟩, ?_⟩
        refine Result.bind_eq_ok.2 ⟨others, ih.2 ⟨hforms, fun q hq => ?_, hids.2⟩, rfl⟩
        refine ⟨(hvalids.2 q hq).1, fun hm => ?_⟩
        -- an id seen so far is that of the first parameter or one from before
        rcases List.mem_cons.1 hm with hm | hm
        · exact hids.1 (hm ▸ List.mem_map_of_mem hq)
        · exact (hvalids.2 q hq).2 hm

/-- The parameters of a manifest are read from an array, or there are none. -/
lemma readParameters_iff {part? : Option Json} {parameters : List Parameter} :
    readParameters part? = .ok parameters ↔
      Json.Items Parameter.Form part? parameters ∧
        (∀ p ∈ parameters, p.id ≠ "" ∧ p.rule.Valid) ∧ (parameters.map Parameter.id).Nodup := by
  constructor
  · intro h
    unfold readParameters at h
    split at h
    · cases h
      exact ⟨.absent, by simp, by simp⟩
    · cases h
      exact ⟨.null, by simp, by simp⟩
    · obtain ⟨hforms, hvalids, hids⟩ := readParameterItems_iff.1 h
      exact ⟨.array hforms, fun p hp => (hvalids p hp).1, hids⟩
    · cases h
  · rintro ⟨hitems, hvalids, hids⟩
    cases hitems with
    | absent => rfl
    | null => rfl
    | array hforms =>
      exact readParameterItems_iff.2 ⟨hforms, fun p hp => ⟨hvalids p hp, by simp⟩, hids⟩

/-! ## Sections -/

section

variable {α : Type} {read : Json → String → Except Fault α} {Form : Json → α → Prop}
  {Valid : α → Prop}

/-- Entries are read one by one, each under a key that is not empty. -/
lemma readEntries_iff
    (hread : ∀ value place a, read value place = .ok a ↔ Form value a ∧ Valid a)
    {entries : List (String × α)} :
    readEntries name read fields = .ok entries ↔
      List.Forall₂ (fun field entry => field.1 = entry.1 ∧ Form field.2 entry.2) fields entries ∧
        EntriesValid Valid entries := by
  induction fields generalizing entries with
  | nil =>
    constructor
    · intro h
      cases h
      exact ⟨.nil, by simp [EntriesValid]⟩
    · rintro ⟨hforms, _⟩
      cases hforms
      rfl
  | cons field rest ih =>
    obtain ⟨key, value⟩ := field
    rw [readEntries]
    constructor
    · intro h
      split at h
      · cases h
      next hkey =>
        obtain ⟨a, ha, h⟩ := Result.bind_eq_ok.1 h
        obtain ⟨others, hothers, h⟩ := Result.bind_eq_ok.1 h
        cases h
        obtain ⟨hform, hvalid⟩ := (hread _ _ _).1 ha
        obtain ⟨hforms, hvalids⟩ := ih.1 hothers
        exact ⟨.cons ⟨rfl, hform⟩ hforms, List.forall_mem_cons.2 ⟨⟨hkey, hvalid⟩, hvalids⟩⟩
    · rintro ⟨hforms, hvalids⟩
      cases hforms with
      | @cons _ entry _ others hform hforms =>
        obtain ⟨_, a⟩ := entry
        obtain ⟨rfl, hform⟩ := hform
        obtain ⟨⟨hkey, hvalid⟩, hvalids⟩ := List.forall_mem_cons.1 hvalids
        rw [if_neg hkey]
        refine Result.bind_eq_ok.2 ⟨a, (hread _ _ _).2 ⟨hform, hvalid⟩, ?_⟩
        exact Result.bind_eq_ok.2 ⟨others, ih.2 ⟨hforms, hvalids⟩, rfl⟩

/-- A section is read from an object, or it has no entries. -/
lemma readSection_iff
    (hread : ∀ value place a, read value place = .ok a ↔ Form value a ∧ Valid a)
    {part? : Option Json} {entries : List (String × α)} :
    readSection name part? read = .ok entries ↔
      Json.Section Form part? entries ∧ EntriesValid Valid entries := by
  constructor
  · intro h
    unfold readSection at h
    split at h
    · cases h
      exact ⟨.absent, by simp [EntriesValid]⟩
    · cases h
      exact ⟨.null, by simp [EntriesValid]⟩
    · obtain ⟨hforms, hvalids⟩ := (readEntries_iff hread).1 h
      exact ⟨.object hforms, hvalids⟩
    · cases h
  · rintro ⟨hsection, hvalids⟩
    cases hsection with
    | absent => rfl
    | null => rfl
    | object hforms => exact (readEntries_iff hread).2 ⟨hforms, hvalids⟩

end

/-- A node is taken for a text when it cannot give anything else. -/
lemma requireText_iff {node : Expr} :
    requireText node place = .ok () ↔ (Rule.compute node : Rule String).GivesText := by
  unfold requireText
  split
  · simp [Rule.GivesText]
  next hnot =>
    constructor
    · intro h
      cases h
    · rintro ⟨s, rfl⟩
      cases hnot s rfl
  next hnot =>
    cases node with
    | condition comparison a b outcome => exact absurd rfl (hnot comparison a b outcome)
    | format a b template => simp [Rule.GivesText]
    | either a b => simp [Rule.GivesText]

/-- A rule for a text is read from its forms when it gives one. -/
lemma readTextRule_iff (value : Json) (place : String) (rule : Rule String) :
    readTextRule value place = .ok rule ↔ Rule.Form .string value rule ∧ rule.GivesText := by
  constructor
  · intro h
    cases value with
    | string s =>
      cases h
      exact ⟨.literal, trivial⟩
    | object fields =>
      obtain ⟨node, hnode, h⟩ := Result.bind_eq_ok.1 h
      obtain ⟨_, htext, h⟩ := Result.bind_eq_ok.1 h
      cases h
      exact ⟨.compute (readExpr_iff.1 hnode), requireText_iff.1 htext⟩
    | _ => cases h
  · rintro ⟨hform, htext⟩
    cases hform with
    | literal => rfl
    | compute hnode =>
      obtain ⟨fields, rfl⟩ := hnode.object
      refine Result.bind_eq_ok.2 ⟨_, readExpr_iff.2 hnode, ?_⟩
      exact Result.bind_eq_ok.2 ⟨(), requireText_iff.2 htext, rfl⟩

/-- A rule for a flag is read from its forms when it gives one. -/
lemma readFlagRule_iff (value : Json) (place : String) (rule : Rule Bool) :
    readFlagRule value place = .ok rule ↔ Rule.Form .bool value rule ∧ rule.GivesFlag := by
  constructor
  · intro h
    cases value with
    | bool b =>
      cases h
      exact ⟨.literal, trivial⟩
    | object fields =>
      obtain ⟨node, hnode, h⟩ := Result.bind_eq_ok.1 h
      have hform := readExpr_iff.1 hnode
      cases node with
      | condition comparison a b outcome =>
        cases h
        exact ⟨.compute hform, trivial⟩
      | format a b template => cases h
      | either a b =>
        cases h
        exact ⟨.compute hform, trivial⟩
    | _ => cases h
  · rintro ⟨hform, hflag⟩
    cases hform with
    | literal => rfl
    | @compute _ node hnode =>
      obtain ⟨fields, rfl⟩ := hnode.object
      refine Result.bind_eq_ok.2 ⟨node, readExpr_iff.2 hnode, ?_⟩
      cases node with
      | condition comparison a b outcome => rfl
      | format a b template => cases hflag
      | either a b => rfl

/-- A file that is built is read from its form when it is valid. -/
lemma readBuilder_iff (value : Json) (place : String) (b : BuilderEntry) :
    readBuilder value place = .ok b ↔ BuilderEntry.Form value b ∧ b.Valid := by
  constructor
  · intro h
    rw [readBuilder] at h
    split at h
    · cases h
    next fields hfields =>
      obtain rfl := Json.fields?_eq_some.1 hfields
      split at h
      · cases h
      next path hpath =>
        obtain ⟨hpath, hne⟩ := Option.filter_eq_some_iff.1 hpath
        split at h
        · cases h
        next content hcontent =>
          obtain ⟨rule, hrule, h⟩ := Result.bind_eq_ok.1 h
          cases h
          obtain ⟨hform, htext⟩ := (readTextRule_iff _ _ _).1 hrule
          exact ⟨⟨textField?_eq_some.1 hpath, content, hcontent, hform⟩, by simpa using hne, htext⟩
  · rintro ⟨⟨hpath, content, hcontent, hform⟩, hne, htext⟩
    obtain ⟨fields, rfl⟩ := Json.object_of_field? hpath
    have hlookup : fields.lookup "content" = some content := hcontent
    have hread : (textField? fields "filePath").filter (· ≠ "") = some b.path :=
      Option.filter_eq_some_iff.2 ⟨textField?_eq_some.2 hpath, by simpa using hne⟩
    rw [readBuilder, Json.fields?]
    simp only [hread, hlookup]
    exact Result.bind_eq_ok.2 ⟨b.content, (readTextRule_iff _ _ _).2 ⟨hform, htext⟩, rfl⟩

/-- A document is read as a manifest when it is a form of it and the manifest keeps the rules. -/
lemma ofJson_iff {document : Json} {manifest : Manifest} :
    ofJson document = .ok manifest ↔ manifest.Form document ∧ manifest.Valid := by
  constructor
  · intro h
    rw [ofJson] at h
    split at h
    · cases h
    next fields hfields =>
      obtain rfl := Json.fields?_eq_some.1 hfields
      obtain ⟨parameters, hparameters, h⟩ := Result.bind_eq_ok.1 h
      obtain ⟨tokens, htokens, h⟩ := Result.bind_eq_ok.1 h
      obtain ⟨excludes, hexcludes, h⟩ := Result.bind_eq_ok.1 h
      obtain ⟨builders, hbuilders, h⟩ := Result.bind_eq_ok.1 h
      cases h
      obtain ⟨hitems, hvalid, hids⟩ := readParameters_iff.1 hparameters
      obtain ⟨htokens, htexts⟩ := (readSection_iff readTextRule_iff).1 htokens
      obtain ⟨hexcludes, hflags⟩ := (readSection_iff readFlagRule_iff).1 hexcludes
      obtain ⟨hbuilders, hbuilt⟩ := (readSection_iff readBuilder_iff).1 hbuilders
      exact ⟨⟨⟨fields, rfl⟩, hitems, htokens, hexcludes, hbuilders, rfl⟩,
        ⟨hvalid, hids, htexts, hflags, hbuilt⟩⟩
  · rintro ⟨⟨⟨fields, rfl⟩, hitems, htokens, hexcludes, hbuilders, hdocument⟩, hvalid⟩
    rw [ofJson, Json.fields?]
    refine Result.bind_eq_ok.2 ⟨_, readParameters_iff.2 ⟨hitems, hvalid.parameters, hvalid.ids⟩, ?_⟩
    refine Result.bind_eq_ok.2
      ⟨_, (readSection_iff readTextRule_iff).2 ⟨htokens, hvalid.tokens⟩, ?_⟩
    refine Result.bind_eq_ok.2
      ⟨_, (readSection_iff readFlagRule_iff).2 ⟨hexcludes, hvalid.excludes⟩, ?_⟩
    refine Result.bind_eq_ok.2
      ⟨_, (readSection_iff readBuilder_iff).2 ⟨hbuilders, hvalid.builders⟩, ?_⟩
    rw [← hdocument]
    rfl

end Manifest

end ConfigPack
