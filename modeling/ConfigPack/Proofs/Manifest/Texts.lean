import ConfigPack.Fuel.Basic
import ConfigPack.Manifest.Grammar
import ConfigPack.Proofs.Result

/-!
# Texts in manifests

Every text that a manifest holds as a literal, as an outcome or as a default is a string of its
document.  So a fuel that such a text stands for is found in the document (`ofJson_draws`).
-/

namespace ConfigPack

/-! ## What expressions draw on -/

mutual

/-- The texts that an expression gives as they are, its literals and outcomes, are of a kind. -/
def Expr.Draws (P : String → Prop) : Expr → Prop
  | .condition _ a b outcome => a.Draws P ∧ b.Draws P ∧ ∀ s, outcome = some (.text s) → P s
  | .format a b _ => a.Draws P ∧ b.Draws P
  | .either a b => a.Draws P ∧ b.Draws P

/-- The texts that an operand gives as they are, are of a kind. -/
def Operand.Draws (P : String → Prop) : Operand → Prop
  | .literal (.text s) => P s
  | .literal (.bool _) => True
  | .nested node => node.Draws P

end

variable {P Q : String → Prop}

mutual

/-- Texts with one property have every weaker one. -/
lemma Expr.Draws.mono (h : ∀ s, P s → Q s) : ∀ {node : Expr}, node.Draws P → node.Draws Q
  | .condition _ _ _ _, ⟨ha, hb, houtcome⟩ =>
    ⟨ha.mono h, hb.mono h, fun s hs => h s (houtcome s hs)⟩
  | .format _ _ _, ⟨ha, hb⟩ => ⟨ha.mono h, hb.mono h⟩
  | .either _ _, ⟨ha, hb⟩ => ⟨ha.mono h, hb.mono h⟩

/-- The same for an operand. -/
lemma Operand.Draws.mono (h : ∀ s, P s → Q s) : ∀ {op : Operand}, op.Draws P → op.Draws Q
  | .literal (.text s), hs => h s hs
  | .literal (.bool _), _ => trivial
  | .nested _, hnode => Expr.Draws.mono h hnode

end

/-- The text of a rule is of a kind, or those that its expression draws on. -/
def Rule.Draws (P : String → Prop) : Rule String → Prop
  | .literal s => P s
  | .compute node => node.Draws P

/-- The same for a rule. -/
lemma Rule.Draws.mono {rule : Rule String} (h : ∀ s, P s → Q s) (hrule : rule.Draws P) :
    rule.Draws Q := by
  cases rule with
  | literal s => exact h s hrule
  | compute node => exact Expr.Draws.mono h hrule

/-- The default of a question is of a kind, or what the expression draws on. -/
def ParameterRule.Draws (P : String → Prop) : ParameterRule → Prop
  | .ask question => ∀ s, question.default = some (.text s) → P s
  | .compute node => node.Draws P

/-- The same for the rule of a parameter. -/
lemma ParameterRule.Draws.mono {rule : ParameterRule} (h : ∀ s, P s → Q s) (hrule : rule.Draws P) :
    rule.Draws Q := by
  cases rule with
  | ask question => exact fun s hs => h s (hrule s hs)
  | compute node => exact Expr.Draws.mono h hrule

/-- The texts that the parameters, variables and built files of a manifest give as they are, are of
a kind. -/
structure Manifest.Draws (P : String → Prop) (manifest : Manifest) : Prop where
  parameters : ∀ p ∈ manifest.parameters, p.rule.Draws P
  tokens : ∀ e ∈ manifest.tokens, e.2.Draws P
  builders : ∀ b ∈ manifest.builders, b.2.content.Draws P

/-! ## Names of fuels -/

namespace Fuel

/-- A text that stands for no fuel, or for one of some names. -/
def Covered (names : List String) (text : String) : Prop :=
  ∀ name, name? text = some name → name ∈ names

variable {names names' : List String} {text : String} {fields : List (String × Json)} {value : Json}

/-- What some names cover is covered by more of them. -/
lemma Covered.mono (h : Covered names text) (hsub : names ⊆ names') : Covered names' text :=
  fun name hname => hsub (h name hname)

/-- A text is covered by the names in it. -/
lemma covered_string (text : String) : Covered (namesIn (.string text)) text := by
  intro name hname
  rw [namesIn, hname]
  exact List.mem_singleton_self name

/-- The names in the value of a field are among those of the fields. -/
lemma namesIn_field {key : String} :
    ∀ {fields : List (String × Json)}, (key, value) ∈ fields →
      namesIn value ⊆ namesInFields fields
  | (_, _) :: rest, h => by
    rw [namesInFields]
    rcases List.mem_cons.1 h with h | h
    · cases h
      exact List.subset_append_left ..
    · exact List.Subset.trans (namesIn_field h) (List.subset_append_right ..)

/-- So are the names in the value that is found. -/
lemma namesIn_lookup {key : String} (h : fields.lookup key = some value) :
    namesIn value ⊆ namesInFields fields := by
  obtain ⟨front, back, rfl, _⟩ := List.lookup_eq_some_iff.1 h
  exact namesIn_field (List.mem_append_right _ List.mem_cons_self)

/-- The names in an object are those in its fields. -/
lemma namesIn_of_fields? (h : value.fields? = some fields) :
    namesIn value = namesInFields fields := by
  cases value with
  | object fields' =>
    cases h
    rw [namesIn]
  | _ => cases h

end Fuel

namespace Manifest

open Fuel

variable {fields : List (String × Json)} {place : String}

/-! ## Expressions -/

/-- A node draws its texts from its operands and its outcome. -/
lemma makeExpr_draws {word : String} {a b : Operand} {outcome : Option Outcome} {node : Expr}
    (h : makeExpr word a b outcome place = .ok node) (ha : a.Draws P) (hb : b.Draws P)
    (houtcome : ∀ s, outcome = some (.text s) → P s) : node.Draws P := by
  unfold makeExpr at h
  split at h
  · cases h
    exact ⟨ha, hb, houtcome⟩
  · cases h
    exact ⟨ha, hb, houtcome⟩
  · cases h
    exact ⟨ha, hb, houtcome⟩
  · split at h
    · cases h
      exact ⟨ha, hb⟩
    · cases h
  · split at h
    · cases h
      exact ⟨ha, hb⟩
    · cases h
  · split at h
    · cases h
      exact ⟨ha, hb⟩
    · cases h
  · cases h

/-- The text of an outcome stands in its field. -/
lemma lookup_of_readOutcome {s : String}
    (h : readOutcome fields place = .ok (some (.text s))) :
    fields.lookup "result" = some (.string s) := by
  unfold readOutcome at h
  split at h
  · cases h
  · cases h
  next hlookup =>
    cases h
    exact hlookup
  · cases h
  · cases h

/-- A node draws on what its operands draw on and on its outcome. -/
lemma readNode_draws {operands : List (String × OperandReader)} {node : Expr}
    (h : readNode fields operands place = .ok node)
    (hoperands : ∀ name read at_ op, operands.lookup name = some read → read at_ = .ok op →
      op.Draws P)
    (hresult : ∀ s, fields.lookup "result" = some (.string s) → P s) : node.Draws P := by
  -- an operand is given by the reader under its name
  have hnamed : ∀ {name op}, readNamed operands place name = .ok op → op.Draws P := by
    intro name op h
    unfold readNamed at h
    split at h
    next read hread => exact hoperands name read _ op hread h
    next => cases h
  rw [readNode] at h
  split at h
  · cases h
  obtain ⟨a, ha, h⟩ := Result.bind_eq_ok.1 h
  obtain ⟨b, hb, h⟩ := Result.bind_eq_ok.1 h
  obtain ⟨outcome, houtcome, h⟩ := Result.bind_eq_ok.1 h
  refine makeExpr_draws h (hnamed ha) (hnamed hb) fun s hs => hresult s ?_
  subst hs
  exact lookup_of_readOutcome houtcome

mutual

/-- An operand that is read draws its texts from the document. -/
lemma readOperand_draws : ∀ {value : Json} {place : String} {op : Operand},
    readOperand value place = .ok op → op.Draws (Covered (namesIn value))
  | .string s, _, _, h => by
    cases h
    exact covered_string s
  | .bool _, _, _, h => by
    cases h
    trivial
  | .object fields, place, op, h => by
    obtain ⟨node, hnode, rfl⟩ := Result.map_eq_ok.1 h
    rw [namesIn]
    refine readNode_draws hnode (fun name read at_ op hread hop => ?_) fun s hs =>
      (covered_string s).mono (namesIn_lookup hs)
    exact operandReaders_draws hread hop
  | .null, _, _, h | .number _, _, _, h | .array _, _, _, h => by cases h

/-- So does an operand that is read from one of some fields. -/
lemma operandReaders_draws : ∀ {fields : List (String × Json)} {name : String}
    {read : OperandReader} {place : String} {op : Operand},
    (operandReaders fields).lookup name = some read → read place = .ok op →
      op.Draws (Covered (namesInFields fields))
  | (first, value) :: rest, name, read, place, op, h, hop => by
    rw [operandReaders, List.lookup_cons] at h
    rw [namesInFields]
    split at h
    · cases h
      exact (readOperand_draws hop).mono fun s hs => hs.mono (List.subset_append_left ..)
    · exact (operandReaders_draws h hop).mono fun s hs => hs.mono (List.subset_append_right ..)

end

/-- A node that is read draws its texts from the document. -/
lemma readExpr_draws {value : Json} {node : Expr} (h : readExpr value place = .ok node) :
    node.Draws (Covered (namesIn value)) := by
  cases value with
  | object fields =>
    rw [namesIn]
    exact readNode_draws h (fun _ _ _ _ => operandReaders_draws) fun s hs =>
      (covered_string s).mono (namesIn_lookup hs)
  | _ => cases h

/-! ## Parameters -/

/-- A default that is a text stands in its field. -/
lemma readDefault_text {kind : QuestionKind} {part? : Option Json} {s : String}
    (h : readDefault kind part? place = .ok (some (.text s))) : part? = some (.string s) := by
  unfold readDefault at h
  split at h
  all_goals cases h
  rfl

/-- The default of a question is found among its fields. -/
lemma readQuestion_draws {question : Question} (h : readQuestion fields place = .ok question) :
    (ParameterRule.ask question).Draws (Covered (namesInFields fields)) := by
  intro s hs
  rw [readQuestion] at h
  split at h
  · cases h
  split at h
  · cases h
  obtain ⟨default, hdefault, h⟩ := Result.bind_eq_ok.1 h
  cases h
  subst hs
  exact (covered_string s).mono (namesIn_lookup (readDefault_text hdefault))

/-- The rule of a parameter draws its texts from the document. -/
lemma readParameterRule_draws {part? : Option Json} {rule : ParameterRule}
    (h : readParameterRule part? place = .ok rule) :
    ∃ value, part? = some value ∧ rule.Draws (Covered (namesIn value)) := by
  unfold readParameterRule at h
  split at h
  · cases h
  next fields hfields =>
    obtain ⟨value, rfl, hfields⟩ := Option.bind_eq_some_iff.1 hfields
    refine ⟨value, rfl, ?_⟩
    rw [namesIn_of_fields? hfields]
    split at h
    · obtain ⟨question, hquestion, rfl⟩ := Result.map_eq_ok.1 h
      exact readQuestion_draws hquestion
    · split at h
      next node hlookup =>
        obtain ⟨expr, hexpr, rfl⟩ := Result.map_eq_ok.1 h
        exact (readExpr_draws hexpr).mono fun s hs => hs.mono (namesIn_lookup hlookup)
      · cases h
    · cases h
    · cases h

/-- So does a parameter. -/
lemma readParameter_draws {seen : List String} {value : Json} {parameter : Parameter}
    (h : readParameter seen value place = .ok parameter) :
    parameter.rule.Draws (Covered (namesIn value)) := by
  rw [readParameter] at h
  split at h
  · cases h
  next fields hfields =>
    split at h
    · cases h
    split at h
    · cases h
    rw [namesIn_of_fields? hfields]
    obtain ⟨rule, hrule, h⟩ := Result.bind_eq_ok.1 h
    cases h
    obtain ⟨part, hlookup, hdraws⟩ := readParameterRule_draws hrule
    exact hdraws.mono fun s hs => hs.mono (namesIn_lookup hlookup)

/-- So do several of them. -/
lemma readParameterItems_draws :
    ∀ {items : List Json} {index : Nat} {seen : List String} {parameters : List Parameter},
      readParameterItems index seen items = .ok parameters →
        ∀ p ∈ parameters, p.rule.Draws (Covered (namesInItems items))
  | [], _, _, _, h => by
    cases h
    simp
  | value :: rest, index, seen, _, h => by
    obtain ⟨first, hfirst, h⟩ := Result.bind_eq_ok.1 h
    obtain ⟨others, hothers, h⟩ := Result.bind_eq_ok.1 h
    cases h
    rw [namesInItems, List.forall_mem_cons]
    constructor
    · exact (readParameter_draws hfirst).mono fun s hs => hs.mono (List.subset_append_left ..)
    · intro p hp
      exact (readParameterItems_draws hothers p hp).mono fun s hs =>
        hs.mono (List.subset_append_right ..)

/-- All parameters draw their texts from the field of the parameters. -/
lemma readParameters_draws {key : String} {parameters : List Parameter}
    (h : readParameters (fields.lookup key) = .ok parameters) :
    ∀ p ∈ parameters, p.rule.Draws (Covered (namesInFields fields)) := by
  unfold readParameters at h
  split at h
  · cases h
    simp
  · cases h
    simp
  next items hlookup =>
    intro p hp
    refine (readParameterItems_draws h p hp).mono fun s hs => hs.mono ?_
    have hitems := namesIn_lookup hlookup
    rwa [namesIn] at hitems
  · cases h

/-! ## Sections -/

section

variable {α : Type} {read : Json → String → Except Fault α}

/-- What is read from a section is read from its fields. -/
lemma mem_of_readEntries {name : String} :
    ∀ {fields : List (String × Json)} {entries : List (String × α)},
      readEntries name read fields = .ok entries →
        ∀ e ∈ entries, ∃ value at_, (e.1, value) ∈ fields ∧ read value at_ = .ok e.2
  | [], _, h => by
    cases h
    simp
  | (key, value) :: rest, _, h => by
    rw [readEntries] at h
    split at h
    · cases h
    obtain ⟨entry, hentry, h⟩ := Result.bind_eq_ok.1 h
    obtain ⟨others, hothers, h⟩ := Result.bind_eq_ok.1 h
    cases h
    rw [List.forall_mem_cons]
    refine ⟨⟨value, _, List.mem_cons_self, hentry⟩, fun e he => ?_⟩
    obtain ⟨value', at_, hmem, hread⟩ := mem_of_readEntries hothers e he
    exact ⟨value', at_, List.mem_cons_of_mem _ hmem, hread⟩

/-- What is read from a section is read from values of the document. -/
lemma mem_of_readSection {name key : String} {entries : List (String × α)}
    (h : readSection name (fields.lookup key) read = .ok entries) {e : String × α}
    (he : e ∈ entries) :
    ∃ value at_, namesIn value ⊆ namesInFields fields ∧ read value at_ = .ok e.2 := by
  unfold readSection at h
  split at h
  · cases h
    cases he
  · cases h
    cases he
  next entries' hlookup =>
    obtain ⟨value, at_, hmem, hread⟩ := mem_of_readEntries h e he
    have hinner := namesIn_lookup hlookup
    rw [namesIn] at hinner
    exact ⟨value, at_, List.Subset.trans (namesIn_field hmem) hinner, hread⟩
  · cases h

end

/-- A rule for a text draws it from the document. -/
lemma readTextRule_draws {value : Json} {rule : Rule String}
    (h : readTextRule value place = .ok rule) : rule.Draws (Covered (namesIn value)) := by
  cases value with
  | string s =>
    cases h
    exact covered_string s
  | object fields =>
    obtain ⟨node, hnode, h⟩ := Result.bind_eq_ok.1 h
    obtain ⟨_, _, h⟩ := Result.bind_eq_ok.1 h
    cases h
    exact readExpr_draws hnode
  | _ => cases h

/-- So does a file that is built for its content. -/
lemma readBuilder_draws {value : Json} {builder : BuilderEntry}
    (h : readBuilder value place = .ok builder) :
    builder.content.Draws (Covered (namesIn value)) := by
  rw [readBuilder] at h
  split at h
  · cases h
  next fields hfields =>
    split at h
    · cases h
    split at h
    · cases h
    next content hlookup =>
      obtain ⟨rule, hrule, h⟩ := Result.bind_eq_ok.1 h
      cases h
      rw [namesIn_of_fields? hfields]
      exact (readTextRule_draws hrule).mono fun s hs => hs.mono (namesIn_lookup hlookup)

/-- The fuels that the texts of a manifest stand for are found in its document. -/
lemma ofJson_draws {document : Json} {manifest : Manifest} (h : ofJson document = .ok manifest) :
    manifest.Draws (Covered (namesIn document)) := by
  rw [ofJson] at h
  split at h
  · cases h
  next fields hfields =>
    obtain ⟨parameters, hparameters, h⟩ := Result.bind_eq_ok.1 h
    obtain ⟨tokens, htokens, h⟩ := Result.bind_eq_ok.1 h
    obtain ⟨excludes, _, h⟩ := Result.bind_eq_ok.1 h
    obtain ⟨builders, hbuilders, h⟩ := Result.bind_eq_ok.1 h
    cases h
    rw [namesIn_of_fields? hfields]
    refine ⟨readParameters_draws hparameters, fun e he => ?_, fun b hb => ?_⟩
    · obtain ⟨value, at_, hsub, hread⟩ := mem_of_readSection htokens he
      exact (readTextRule_draws hread).mono fun s hs => hs.mono hsub
    · obtain ⟨value, at_, hsub, hread⟩ := mem_of_readSection hbuilders hb
      exact (readBuilder_draws hread).mono fun s hs => hs.mono hsub

end Manifest

end ConfigPack
