import ConfigPack.Proofs.Json.Within
import ConfigPack.Proofs.Manifest.Form

/-!
# Encodings of manifests

A manifest is written as a document with all of its sections, each part in one of its forms.  Since
the forms are what is read, a manifest that keeps the rules is read back from its encoding
(`ofJson_accepts_grammar`).
-/

namespace ConfigPack

/-- An outcome as a document. -/
def Outcome.encoding : Outcome → Json
  | text s => .string s
  | yes => .bool true

/-- A value as a document. -/
def Value.encoding : Value → Json
  | text s => .string s
  | bool b => .bool b

/-- A field that is left out when there is nothing to put into it. -/
def Json.optionalField (name : String) : Option Json → List (String × Json)
  | some value => [(name, value)]
  | none => []

mutual

/-- A node as a document; a choice has the longer of its two words. -/
def Expr.encoding : Expr → Json
  | .condition comparison a b outcome =>
    .object (("type", .string comparison.word) :: ("a", a.encoding) :: ("b", b.encoding) ::
      Json.optionalField "result" (outcome.map Outcome.encoding))
  | .format a b template =>
    .object [("type", .string "format"), ("a", a.encoding), ("b", b.encoding),
      ("result", .string template)]
  | .either a b =>
    .object [("type", .string "$or"), ("a", a.encoding), ("b", b.encoding)]

/-- An operand as a document. -/
def Operand.encoding : Operand → Json
  | .literal value => value.encoding
  | .nested node => node.encoding

end

/-- A rule as a document, where `scalar` is that of a literal. -/
def Rule.encoding {α : Type} (scalar : α → Json) : Rule α → Json
  | literal a => scalar a
  | compute node => node.encoding

/-- The rule of a parameter as a document, with the word of its operation. -/
def ParameterRule.encoding : ParameterRule → Json
  | ask question =>
    .object (("operation", .string "prompt") :: ("type", .string question.kind.word) ::
      ("label", .string question.label) ::
      Json.optionalField "initial" (question.default.map Value.encoding))
  | compute node => .object [("operation", .string "resolvable"), ("resolvable", node.encoding)]

/-- A parameter as a document. -/
def Parameter.encoding (p : Parameter) : Json :=
  .object [("id", .string p.id), ("resolver", p.rule.encoding)]

/-- A file that is built as a document. -/
def BuilderEntry.encoding (b : BuilderEntry) : Json :=
  .object [("filePath", .string b.path), ("content", b.content.encoding .string)]

/-- Entries as fields of an object. -/
def Json.ofEntries {α : Type} (encoding : α → Json) (entries : List (String × α)) : Json :=
  .object (entries.map fun e => (e.1, encoding e.2))

/-- The document of a manifest, with all sections. -/
def Manifest.encoding (manifest : Manifest) : Json :=
  .object [(Manifest.parametersKey, .array (manifest.parameters.map Parameter.encoding)),
    (Manifest.variablesKey, .ofEntries (Rule.encoding .string) manifest.tokens),
    (Manifest.excludesKey, .ofEntries (Rule.encoding .bool) manifest.excludes),
    (Manifest.buildersKey, .ofEntries BuilderEntry.encoding manifest.builders)]

/-- A manifest without two entries of one section under one key. -/
structure Manifest.DistinctKeys (manifest : Manifest) : Prop where
  tokens : (manifest.tokens.map Prod.fst).Nodup
  excludes : (manifest.excludes.map Prod.fst).Nodup
  builders : (manifest.builders.map Prod.fst).Nodup

/-! ## Encodings are forms -/

/-- A value has the form of its encoding. -/
lemma Value.form_encoding (value : Value) : Operand.Form value.encoding (.literal value) := by
  cases value with
  | text s => exact .text
  | bool b => exact .bool

mutual

/-- A node has the form of its encoding. -/
lemma Expr.form_encoding : ∀ node : Expr, Expr.Form node.encoding node
  | .condition comparison a b outcome => by
    rw [Expr.encoding]
    refine .node rfl rfl a.form_encoding rfl b.form_encoding ?_ .condition
    match outcome with
    | none => exact .absent
    | some (.text s) => exact .text
    | some .yes => exact .yes
  | .format a b template => by
    rw [Expr.encoding]
    exact .node rfl rfl a.form_encoding rfl b.form_encoding .text .format
  | .either a b => by
    rw [Expr.encoding]
    exact .node rfl rfl a.form_encoding rfl b.form_encoding .absent (.either (.inl rfl))

/-- So has an operand. -/
lemma Operand.form_encoding : ∀ op : Operand, Operand.Form op.encoding op
  | .literal value => by
    rw [Operand.encoding]
    exact value.form_encoding
  | .nested node => by
    rw [Operand.encoding]
    exact .nested node.form_encoding

end

/-- So has a rule. -/
lemma Rule.form_encoding {α : Type} (scalar : α → Json) (rule : Rule α) :
    Rule.Form scalar (rule.encoding scalar) rule := by
  cases rule with
  | literal a => exact .literal
  | compute node => exact .compute node.form_encoding

/-- So has the rule of a parameter. -/
lemma ParameterRule.form_encoding (rule : ParameterRule) :
    ParameterRule.Form rule.encoding rule := by
  cases rule with
  | ask question =>
    obtain ⟨kind, label, default⟩ := question
    refine .ask rfl rfl rfl ?_
    match default with
    | none => exact .absent
    | some (.text s) => exact .text
    | some (.bool b) => exact .bool
  | compute node => exact .compute rfl rfl node.form_encoding

/-- So has a parameter. -/
lemma Parameter.form_encoding (p : Parameter) : Parameter.Form p.encoding p where
  id := rfl
  rule := ⟨_, rfl, p.rule.form_encoding⟩

/-- So has a file that is built. -/
lemma BuilderEntry.form_encoding (b : BuilderEntry) : BuilderEntry.Form b.encoding b where
  path := rfl
  content := ⟨_, rfl, b.content.form_encoding .string⟩

/-- A section has the form of the encodings of its entries. -/
lemma Json.section_ofEntries {α : Type} {Form : Json → α → Prop} {encoding : α → Json}
    (h : ∀ a, Form (encoding a) a) (entries : List (String × α)) :
    Json.Section Form (some (.ofEntries encoding entries)) entries := by
  refine .object ?_
  induction entries with
  | nil => exact .nil
  | cons e entries ih => exact .cons ⟨rfl, h e.2⟩ ih

/-- A manifest has the form of its encoding, which is then its document. -/
lemma Manifest.form_encoding (manifest : Manifest) :
    Manifest.Form manifest.encoding { manifest with document := manifest.encoding } where
  object := ⟨_, rfl⟩
  parameters := by
    refine .array ?_
    induction manifest.parameters with
    | nil => exact .nil
    | cons p parameters ih => exact .cons p.form_encoding ih
  tokens := Json.section_ofEntries (Rule.form_encoding .string) manifest.tokens
  excludes := Json.section_ofEntries (Rule.form_encoding .bool) manifest.excludes
  builders := Json.section_ofEntries BuilderEntry.form_encoding manifest.builders
  document := rfl

/-! ## Encodings have distinct fields -/

/-- The encoding of a value has distinct names, for it has none. -/
lemma Value.distinct_encoding (value : Value) : value.encoding.Distinct := by
  cases value with
  | text s => exact .string
  | bool b => exact .bool

/-- So has that of an outcome. -/
lemma Outcome.distinct_encoding (outcome : Outcome) : outcome.encoding.Distinct := by
  cases outcome with
  | text s => exact .string
  | yes => exact .bool

mutual

/-- The encoding of a node has distinct names. -/
lemma Expr.distinct_encoding : ∀ node : Expr, node.encoding.Distinct
  | .condition comparison a b outcome => by
    rw [Expr.encoding]
    cases outcome with
    | none =>
      refine .object (by decide : ["type", "a", "b"].Nodup) ?_
      simp [Json.optionalField, a.distinct_encoding, b.distinct_encoding]
    | some outcome =>
      refine .object (by decide : ["type", "a", "b", "result"].Nodup) ?_
      simp [Json.optionalField, a.distinct_encoding, b.distinct_encoding,
        outcome.distinct_encoding]
  | .format a b template => by
    rw [Expr.encoding]
    refine .object (by decide : ["type", "a", "b", "result"].Nodup) ?_
    simp [a.distinct_encoding, b.distinct_encoding]
  | .either a b => by
    rw [Expr.encoding]
    refine .object (by decide : ["type", "a", "b"].Nodup) ?_
    simp [a.distinct_encoding, b.distinct_encoding]

/-- So has that of an operand. -/
lemma Operand.distinct_encoding : ∀ op : Operand, op.encoding.Distinct
  | .literal value => by
    rw [Operand.encoding]
    exact value.distinct_encoding
  | .nested node => by
    rw [Operand.encoding]
    exact node.distinct_encoding

end

/-- So has that of a rule. -/
lemma Rule.distinct_encoding {α : Type} {scalar : α → Json} (h : ∀ a, (scalar a).Distinct)
    (rule : Rule α) : (rule.encoding scalar).Distinct := by
  cases rule with
  | literal a => exact h a
  | compute node => exact node.distinct_encoding

/-- So has that of the rule of a parameter. -/
lemma ParameterRule.distinct_encoding (rule : ParameterRule) : rule.encoding.Distinct := by
  cases rule with
  | ask question =>
    obtain ⟨kind, label, default⟩ := question
    cases default with
    | none =>
      refine .object (by decide : ["operation", "type", "label"].Nodup) ?_
      simp [Json.optionalField]
    | some value =>
      refine .object (by decide : ["operation", "type", "label", "initial"].Nodup) ?_
      simp [Json.optionalField, value.distinct_encoding]
  | compute node =>
    refine .object (by decide : ["operation", "resolvable"].Nodup) ?_
    simp [node.distinct_encoding]

/-- So has that of a parameter. -/
lemma Parameter.distinct_encoding (p : Parameter) : p.encoding.Distinct := by
  refine .object (by decide : ["id", "resolver"].Nodup) ?_
  simp [p.rule.distinct_encoding]

/-- So has that of a file that is built. -/
lemma BuilderEntry.distinct_encoding (b : BuilderEntry) : b.encoding.Distinct := by
  refine .object (by decide : ["filePath", "content"].Nodup) ?_
  simp [Rule.distinct_encoding]

/-- A section with different keys has distinct names. -/
lemma Json.distinct_ofEntries {α : Type} {encoding : α → Json} (h : ∀ a, (encoding a).Distinct)
    {entries : List (String × α)} (hkeys : (entries.map Prod.fst).Nodup) :
    (Json.ofEntries encoding entries).Distinct := by
  refine .object (by simpa [Function.comp_def] using hkeys) fun field hfield => ?_
  obtain ⟨e, _, rfl⟩ := List.mem_map.1 hfield
  exact h e.2

/-- The encoding of a manifest with different keys has distinct names. -/
lemma Manifest.distinct_encoding {manifest : Manifest} (h : manifest.DistinctKeys) :
    manifest.encoding.Distinct := by
  have hparameters : (Json.array (manifest.parameters.map Parameter.encoding)).Distinct := by
    refine .array fun item hitem => ?_
    obtain ⟨p, _, rfl⟩ := List.mem_map.1 hitem
    exact p.distinct_encoding
  have htokens : (Json.ofEntries (Rule.encoding .string) manifest.tokens).Distinct :=
    Json.distinct_ofEntries (Rule.distinct_encoding fun _ => .string) h.tokens
  have hexcludes : (Json.ofEntries (Rule.encoding .bool) manifest.excludes).Distinct :=
    Json.distinct_ofEntries (Rule.distinct_encoding fun _ => .bool) h.excludes
  have hbuilders : (Json.ofEntries BuilderEntry.encoding manifest.builders).Distinct :=
    Json.distinct_ofEntries BuilderEntry.distinct_encoding h.builders
  refine .object (by decide : [parametersKey, variablesKey, excludesKey, buildersKey].Nodup) ?_
  simp [hparameters, htokens, hexcludes, hbuilders]

namespace Manifest

/-- A document is read as a manifest exactly when it is a form of the manifest and the manifest
keeps the rules.  A manifest that keeps the rules is read back from its encoding, which repeats no
name in an object when no section repeats a key. -/
theorem ofJson_accepts_grammar (document : Json) (manifest : Manifest) :
    (ofJson document = .ok manifest ↔ manifest.Form document ∧ manifest.Valid) ∧
      (manifest.Valid →
        ofJson manifest.encoding = .ok { manifest with document := manifest.encoding } ∧
          (manifest.DistinctKeys → manifest.encoding.Distinct)) := by
  refine ⟨ofJson_iff, fun hvalid => ⟨?_, distinct_encoding⟩⟩
  -- no rule is about the document that a manifest keeps
  have hsame : Manifest.Valid { manifest with document := manifest.encoding } :=
    ⟨hvalid.parameters, hvalid.ids, hvalid.tokens, hvalid.excludes, hvalid.builders⟩
  exact ofJson_iff.2 ⟨manifest.form_encoding, hsame⟩

/-- A document with a question and a variable, not in the order or the words of an encoding. -/
def greetingDocument : Json :=
  .object [("excludesResolver", .null),
    ("variablesResolver", .object [("greeting", .object
      [("b", .string "$name"), ("type", .string "or"), ("result", .null), ("a", .object
        [("type", .string "contain"), ("a", .string "$name"), ("b", .string "Dr. "),
          ("result", .bool true)])])]),
    ("comment", .number (.int 1)),
    ("parameters", .array [.object [("resolver", .object [("label", .string "Name"),
      ("operation", .string "prompt"), ("type", .string "text"), ("initial", .string "you")]),
      ("id", .string "$name")]])]

/-- The manifest of the document. -/
def greetingManifest : Manifest where
  parameters := [⟨"$name", .ask ⟨.text, "Name", some (.text "you")⟩⟩]
  tokens := [("greeting", .compute (.either
    (.nested (.condition .contains (.literal (.text "$name")) (.literal (.text "Dr. "))
      (some .yes)))
    (.literal (.text "$name"))))]
  excludes := []
  builders := []
  document := greetingDocument

/-- The document is that manifest's, and so is the encoding of the manifest. -/
theorem greeting_is_read_back :
    greetingManifest.Form greetingDocument ∧ greetingManifest.Valid ∧
      ofJson greetingManifest.encoding =
        .ok { greetingManifest with document := greetingManifest.encoding } ∧
      greetingManifest.encoding.Distinct := by
  have hread : ofJson greetingDocument = .ok greetingManifest := rfl
  obtain ⟨hiff, hback⟩ := ofJson_accepts_grammar greetingDocument greetingManifest
  obtain ⟨hform, hvalid⟩ := hiff.1 hread
  obtain ⟨hencoding, hdistinct⟩ := hback hvalid
  exact ⟨hform, hvalid, hencoding, hdistinct ⟨by decide, by decide, by decide⟩⟩

end Manifest

end ConfigPack
