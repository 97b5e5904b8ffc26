import ConfigPack.Proofs.Manifest.Texts
import ConfigPack.Proofs.Plan
import ConfigPack.Proofs.Text.Replace

/-!
# Where requested fuels come from

A text of an environment is a text of the manifest, an answer of the user, or a filled template.
When answers and templates do not make up fuels, every fuel that an environment asks for is one
that the document of the manifest refers to.
-/

namespace ConfigPack

variable {σ : Type} {P : String → Prop}

/-! ## Filled templates -/

namespace Text

variable {text pattern value : String}

/-- A text that does not begin like a pattern keeps its first character when the pattern is
replaced. -/
lemma head?_replace (hpattern : pattern ≠ "") (h : text.toList.head? ≠ pattern.toList.head?) :
    (replace text pattern value).toList.head? = text.toList.head? :=
  (replace_replaced hpattern).head?_eq (fun hnil => hpattern (String.toList_eq_nil_iff.1 hnil)) h

end Text

/-- A template that begins neither like a fuel nor with the place of an operand. -/
def PlainTemplate (template : String) : Prop :=
  template.toList.head? ≠ some 'f' ∧ template.toList.head? ≠ some '\x7b'

instance : DecidablePred PlainTemplate := fun _ => inferInstanceAs (Decidable (_ ∧ _))

/-- A template that begins with no place of an operand is filled to a text that begins as it does.
-/
lemma head?_fillTemplate {template : String} (h : template.toList.head? ≠ some '\x7b')
    (a b : Value) : (fillTemplate template a b).toList.head? = template.toList.head? := by
  have hfirst : (Text.replace template "\x7ba\x7d" a.display).toList.head? =
      template.toList.head? :=
    Text.head?_replace (by decide) h
  rw [fillTemplate, Text.head?_replace (by decide) (hfirst ▸ h), hfirst]

namespace Fuel

/-- A text that stands for a fuel begins like one. -/
lemma head?_of_name? {text name : String} (h : name? text = some name) :
    text.toList.head? = some 'f' := by
  rw [name?] at h
  split at h
  next hprefix =>
    obtain ⟨rest, hrest⟩ := List.isPrefixOf_iff_prefix.1 hprefix
    rw [← hrest]
    rfl
  next => cases h

/-- A filled template stands for no fuel. -/
lemma covered_fillTemplate {names : List String} {template : String} (h : PlainTemplate template)
    (a b : Value) : Covered names (fillTemplate template a b) := by
  intro name hname
  have hfirst := head?_of_name? hname
  rw [head?_fillTemplate h.2] at hfirst
  exact absurd hfirst h.1

end Fuel

mutual

/-- The templates in an expression. -/
def Expr.templates : Expr → List String
  | .condition _ a b _ => a.templates ++ b.templates
  | .format a b template => template :: (a.templates ++ b.templates)
  | .either a b => a.templates ++ b.templates

/-- The templates in an operand. -/
def Operand.templates : Operand → List String
  | .literal _ => []
  | .nested node => node.templates

end

/-- The templates in a rule. -/
def Rule.templates {α : Type} : Rule α → List String
  | .literal _ => []
  | .compute node => node.templates

/-- The templates in a rule for a parameter. -/
def ParameterRule.templates : ParameterRule → List String
  | .ask _ => []
  | .compute node => node.templates

/-- The templates in a manifest. -/
def Manifest.templates (manifest : Manifest) : List String :=
  manifest.parameters.flatMap (fun p => p.rule.templates) ++
    manifest.tokens.flatMap (fun e => e.2.templates) ++
    manifest.excludes.flatMap (fun e => e.2.templates) ++
    manifest.builders.flatMap (fun b => b.2.content.templates)

/-- A template of a manifest is one of a parameter, a token, an exclude or a builder. -/
lemma Manifest.mem_templates {manifest : Manifest} {template : String} :
    template ∈ manifest.templates ↔
      (∃ p ∈ manifest.parameters, template ∈ p.rule.templates) ∨
        (∃ e ∈ manifest.tokens, template ∈ e.2.templates) ∨
        (∃ e ∈ manifest.excludes, template ∈ e.2.templates) ∨
        ∃ b ∈ manifest.builders, template ∈ b.2.content.templates := by
  simp only [Manifest.templates, List.mem_append, List.mem_flatMap, or_assoc]

/-! ## Evaluation -/

open Fuel

/-- The text of a value, if it is one, is of a kind. -/
def Value.Draws (P : String → Prop) (value : Value) : Prop := ∀ s, value = .text s → P s

/-- The texts of parameters are of a kind. -/
def ParameterEnv.Draws (P : String → Prop) (env : ParameterEnv) : Prop :=
  ∀ id value, env.find? id = some value → value.Draws P

/-- A truth value has no text. -/
lemma Value.Draws.bool {b : Bool} : Value.Draws P (.bool b) := by
  intro s hs
  cases hs

/-- A value that is a text has that text. -/
lemma Value.Draws.text {s : String} (h : P s) : Value.Draws P (.text s) := by
  rintro _ ⟨⟩
  exact h

variable {names : List String} {env : ParameterEnv} {fallback value : Value}

/-- A gate gives its outcome, the fallback or a truth value. -/
lemma gate_draws {holds : Bool} {outcome : Option Outcome}
    (houtcome : ∀ s, outcome = some (.text s) → P s) (hfallback : fallback.Draws P) :
    (gate holds outcome fallback).Draws P := by
  rw [gate]
  split
  · match outcome with
    | none => exact hfallback
    | some (.text s) => exact .text (houtcome s rfl)
    | some .yes => exact .bool
  · exact .bool

/-- So is the fallback for operands, or it is a truth value. -/
lemma operandFallback_draws (h : fallback.Draws P) : (operandFallback fallback).Draws P := by
  rw [operandFallback]
  split
  · exact h
  · exact .bool

mutual

/-- An expression gives a text of the parameters, one that it draws on, or a filled template. -/
lemma Expr.evaluate_draws (henv : env.Draws (Covered names)) :
    ∀ (node : Expr) {fallback value : Value}, node.Draws (Covered names) →
      (∀ template ∈ node.templates, PlainTemplate template) → fallback.Draws (Covered names) →
      node.evaluate env fallback = .ok value → value.Draws (Covered names)
  | .condition comparison a b outcome, fallback, value, ⟨_, _, houtcome⟩, _, hfallback, h => by
    rw [Expr.evaluate] at h
    obtain ⟨x, _, h⟩ := Result.bind_eq_ok.1 h
    obtain ⟨y, _, h⟩ := Result.bind_eq_ok.1 h
    obtain ⟨holds, _, h⟩ := Result.bind_eq_ok.1 h
    cases h
    -- the operands decide whether it holds, and do not come out
    exact gate_draws houtcome hfallback
  | .format a b template, fallback, value, _, htemplates, _, h => by
    rw [Expr.evaluate] at h
    obtain ⟨x, _, h⟩ := Result.bind_eq_ok.1 h
    obtain ⟨y, _, h⟩ := Result.bind_eq_ok.1 h
    cases h
    exact .text (covered_fillTemplate (htemplates template List.mem_cons_self) x y)
  | .either a b, fallback, value, ⟨ha, hb⟩, htemplates, hfallback, h => by
    rw [Expr.templates, List.forall_mem_append] at htemplates
    rw [Expr.evaluate] at h
    obtain ⟨x, hx, h⟩ := Result.bind_eq_ok.1 h
    split at h
    · cases h
      exact a.evaluate_draws henv ha htemplates.1 hfallback hx
    · exact b.evaluate_draws henv hb htemplates.2 hfallback h

/-- The value of an operand has a text of the operand, of a parameter or of a template that was
filled. -/
lemma Operand.evaluate_draws (henv : env.Draws (Covered names)) :
    ∀ (op : Operand) {fallback value : Value}, op.Draws (Covered names) →
      (∀ template ∈ op.templates, PlainTemplate template) → fallback.Draws (Covered names) →
      op.evaluate env fallback = .ok value → value.Draws (Covered names)
  | .literal (.text s), fallback, value, hdraws, _, _, h => by
    rw [Operand.evaluate] at h
    cases h
    cases hfound : env.find? s with
    | none => exact .text hdraws
    | some value => exact henv s value hfound
  | .literal (.bool b), fallback, value, _, _, _, h => by
    cases h
    exact .bool
  | .nested node, fallback, value, hdraws, htemplates, hfallback, h =>
    node.evaluate_draws henv hdraws htemplates (operandFallback_draws hfallback) h

end

/-! ## Parameters -/

/-- A prompter that makes up no fuels: an answer that stands for a fuel is the default of its
question. -/
def Prompter.Plain (prompter : Prompter σ) : Prop :=
  ∀ question s text s', (prompter question).run.run s = (.ok (.text text), s') →
    name? text = none ∨ question.default = some (.text text)

/-- The defaults make up no fuels. -/
lemma Prompter.defaults_plain : (Prompter.defaults : Prompter σ).Plain := by
  intro question s text s' h
  have hanswer : question.defaultAnswer = .ok (.text text) := (Prod.mk.inj h).1
  unfold Question.defaultAnswer at hanswer
  split at hanswer
  next value hdefault _ =>
    cases hanswer
    match value with
    | .text _ => exact .inr hdefault
    | .bool true => exact .inl (by decide)
    | .bool false => exact .inl (by decide)
  · cases hanswer
  · cases hanswer

/-- A text that stands for no fuel asks for none. -/
lemma covered_of_name? {text : String} (h : name? text = none) : Covered names text := by
  intro name hname
  rw [h] at hname
  cases hname

/-- A value of the kind is added. -/
lemma ParameterEnv.Draws.insert (h : env.Draws P) (hvalue : value.Draws P) (id : String) :
    ParameterEnv.Draws P (env.insert id value) := by
  intro id' value' hfound
  rw [Dict.find?_eq_some_iff, Dict.mem_insert] at hfound
  rcases hfound with hsame | ⟨hother, _⟩
  · cases hsame
    exact hvalue
  · exact h id' value' (Dict.find?_eq_some_iff.2 hother)

namespace Parameters

variable {declared : List String} {prompter : Prompter σ}

/-- The value of an expression asks for no other fuels than its texts do. -/
lemma evaluate_draws {owner : String} {node : Expr} (henv : env.Draws (Covered names))
    (hnode : node.Draws (Covered names))
    (htemplates : ∀ template ∈ node.templates, PlainTemplate template)
    (h : evaluate declared env owner node = .ok value) : value.Draws (Covered names) := by
  obtain ⟨_, _, h⟩ := Result.bind_eq_ok.1 h
  exact node.evaluate_draws henv hnode htemplates .bool (Result.mapError_eq_ok.1 h)

/-- Neither does the value of a parameter, asked for or computed. -/
lemma valueOf_draws {parameter : Parameter} (hprompter : prompter.Plain)
    (henv : env.Draws (Covered names)) (hrule : parameter.rule.Draws (Covered names))
    (htemplates : ∀ template ∈ parameter.rule.templates, PlainTemplate template) :
    Talk.Gives (valueOf declared prompter env parameter) (Value.Draws (Covered names)) := by
  rw [valueOf]
  split
  next question hask =>
    rw [hask] at hrule
    refine .withHost fun s value s' hanswer text htext => ?_
    subst htext
    rcases hprompter question s text s' hanswer with hplain | hdefault
    · exact covered_of_name? hplain
    · exact hrule text hdefault
  next node hcompute =>
    rw [hcompute] at hrule htemplates
    refine .bind (.liftM _) fun value hvalue => .pure ?_
    split
    · exact evaluate_draws henv hrule htemplates hvalue
    · exact .bool

/-- Neither do the parameters up to it. -/
lemma resolveNext_draws {parameter : Parameter} (hprompter : prompter.Plain)
    (henv : env.Draws (Covered names)) (hrule : parameter.rule.Draws (Covered names))
    (htemplates : ∀ template ∈ parameter.rule.templates, PlainTemplate template) :
    Talk.Gives (resolveNext declared prompter [] env parameter)
      (ParameterEnv.Draws (Covered names)) := by
  have hheard : (Bus.emitParameter [] parameter env : Hearing σ ParameterEnv) = pure env := rfl
  rw [resolveNext, hheard, Talk.withHost_pure, pure_bind]
  split
  · exact .next fun _ => .pure henv
  · refine .bind (valueOf_draws hprompter henv hrule htemplates) fun value hvalue => ?_
    exact .next fun _ => .pure (henv.insert hvalue _)

/-- The texts of parameters are texts of their rules or of the user, or filled templates. -/
lemma resolve_draws {parameters : List Parameter} (hprompter : prompter.Plain)
    (hrules : ∀ p ∈ parameters, p.rule.Draws (Covered names))
    (htemplates : ∀ p ∈ parameters, ∀ template ∈ p.rule.templates, PlainTemplate template) :
    Talk.Gives (resolve parameters prompter []) (ParameterEnv.Draws (Covered names)) := by
  refine .foldlM (fun env henv p hp => ?_) ?_
  · exact resolveNext_draws hprompter henv (hrules p hp) (htemplates p hp)
  · intro id value hfound
    cases hfound

end Parameters

/-! ## Environments -/

namespace Environment

variable {parameters : ParameterEnv} {declared : List String}

/-- Parameters are put into a text, and no new fuel is asked for. -/
lemma covered_inject {text : String} (hparameters : parameters.Draws (Covered names))
    (h : Covered names text) : Covered names (inject parameters text) := by
  rw [inject]
  split
  next value hfound => exact hparameters text _ hfound value rfl
  · exact h

/-- The text of a rule is drawn by it, or computed by an expression and then displayed. -/
lemma covered_textOf {owner text : String} {rule : Rule String}
    (hparameters : parameters.Draws (Covered names)) (hrule : rule.Draws (Covered names))
    (htemplates : ∀ template ∈ rule.templates, PlainTemplate template)
    (h : textOf declared parameters owner rule = .ok text) : Covered names text := by
  cases rule with
  | literal s =>
    cases h
    exact hrule
  | compute node =>
    obtain ⟨value, hvalue, h⟩ := Result.bind_eq_ok.1 h
    cases h
    have hdraws := Parameters.evaluate_draws hparameters hrule htemplates hvalue
    split
    · match value with
      | .text s => exact hdraws s rfl
      | .bool true => exact covered_of_name? (by decide)
      | .bool false => exact covered_of_name? (by decide)
    · exact covered_of_name? (by decide)

/-- A variable asks for no other fuels than the manifest does. -/
lemma resolveVariable_covered {resolved : Dict String} {entry : String × Rule String}
    (hparameters : parameters.Draws (Covered names)) (hrule : entry.2.Draws (Covered names))
    (htemplates : ∀ template ∈ entry.2.templates, PlainTemplate template)
    (hresolved : ∀ e ∈ resolved.entries, Covered names e.2) :
    Talk.Gives (resolveVariable declared parameters ([] : Bus σ) resolved entry)
      fun resolved' => ∀ e ∈ resolved'.entries, Covered names e.2 := by
  have hinsert : ∀ text, Covered names text →
      ∀ e ∈ (resolved.insert entry.1 (inject parameters text)).entries, Covered names e.2 := by
    intro text htext e he
    rcases Dict.mem_insert.1 he with rfl | ⟨he, _⟩
    · exact covered_inject hparameters htext
    · exact hresolved e he
  have hheard : (Bus.emitVariable [] entry.1 entry.2 resolved : Hearing σ (Dict String)) =
    pure resolved := rfl
  rw [resolveVariable, hheard, Talk.withHost_pure, pure_bind]
  split
  next seeded hseeded =>
    exact .pure (hinsert seeded (hresolved _ (Dict.mem_entries_of_find? hseeded)))
  next =>
    exact .bind (.liftM _) fun text htext =>
      .pure (hinsert text (covered_textOf hparameters hrule htemplates htext))

/-- Neither does a builder. -/
lemma resolveBuilder_covered {resolved : Dict BuiltFile} {entry : String × BuilderEntry}
    (hparameters : parameters.Draws (Covered names))
    (hrule : entry.2.content.Draws (Covered names))
    (htemplates : ∀ template ∈ entry.2.content.templates, PlainTemplate template)
    (hresolved : ∀ e ∈ resolved.entries, Covered names e.2.content) :
    Talk.Gives (resolveBuilder declared parameters ([] : Bus σ) resolved entry)
      fun resolved' => ∀ e ∈ resolved'.entries, Covered names e.2.content := by
  refine (resolveBuilder_gives resolved entry).mono ?_
  rintro _ ⟨built, hbuilt, rfl⟩ e he
  rcases Dict.mem_insert.1 he with rfl | ⟨he, _⟩
  · apply covered_inject hparameters
    rcases hbuilt with hkept | ⟨_, _, htext⟩
    · exact hresolved _ hkept
    · exact covered_textOf hparameters hrule htemplates htext
  · exact hresolved e he

/-- The fuels that an environment asks for are among those of the texts of its manifest. -/
lemma resolve_requested {manifest : Manifest} (hparameters : parameters.Draws (Covered names))
    (hmanifest : manifest.Draws (Covered names))
    (htemplates : ∀ template ∈ manifest.templates, PlainTemplate template) :
    Talk.Gives (resolve manifest parameters ([] : Bus σ))
      fun environment => Install.requested environment ⊆ names := by
  -- texts of tokens and of built files are covered; excludes hold no texts
  have htoken : ∀ e ∈ manifest.tokens, ∀ template ∈ e.2.templates, PlainTemplate template :=
    fun e he template ht =>
      htemplates template (Manifest.mem_templates.2 (.inr (.inl ⟨e, he, ht⟩)))
  have hbuilder : ∀ b ∈ manifest.builders, ∀ template ∈ b.2.content.templates,
      PlainTemplate template := fun b hb template ht =>
    htemplates template (Manifest.mem_templates.2 (.inr (.inr (.inr ⟨b, hb, ht⟩))))
  refine .bind (.foldlM (P := fun tokens => ∀ e ∈ tokens.entries, Covered names e.2) ?_ ?_)
    fun tokens htokens => .next fun excludes => ?_
  · exact fun resolved hresolved e he =>
      resolveVariable_covered hparameters (hmanifest.tokens e he) (htoken e he) hresolved
  · exact fun e he => absurd he List.not_mem_nil
  refine .bind (.foldlM (P := fun builders => ∀ e ∈ builders.entries, Covered names e.2.content)
    ?_ ?_) fun builders hbuilders => .next fun _ => .pure fun name hname => ?_
  · exact fun resolved hresolved b hb =>
      resolveBuilder_covered hparameters (hmanifest.builders b hb) (hbuilder b hb) hresolved
  · exact fun e he => absurd he List.not_mem_nil
  rcases List.mem_append.1 hname with hname | hname
  all_goals
    obtain ⟨text, htext, hfuel⟩ := List.mem_filterMap.1 hname
    obtain ⟨e, he, rfl⟩ := List.mem_map.1 htext
  · exact htokens e he name hfuel
  · exact hbuilders e he name hfuel

end Environment

namespace Install

/-- With no listeners, no template that could make up a fuel and no answer that does, every fuel
that an environment asks for is one that the document of the manifest refers to.  What is asked for
is what the supply of the fuels goes by: sources that agree on it supply the same, and none supplies
anything without having all of it. -/
theorem requested_are_referenced {document : Json} {manifest : Manifest} {prompter : Prompter σ}
    {parameters : ParameterEnv} {environment : Environment} {j j' k k' : Journal σ}
    (hread : Manifest.ofJson document = .ok manifest)
    (htemplates : ∀ template ∈ manifest.templates, PlainTemplate template)
    (hprompter : prompter.Plain)
    (hparameters : (Parameters.resolve manifest.parameters prompter []).run.run j =
      (.ok parameters, j'))
    (henvironment : (Environment.resolve manifest parameters []).run.run k =
      (.ok environment, k')) :
    (∀ name ∈ requested environment, name ∈ Fuel.referenced document) ∧
      (∀ source source' : Fuel.Source,
        (∀ name ∈ requested environment, source name = source' name) →
          fueled source environment = fueled source' environment) ∧
      ∀ (source : Fuel.Source) (supplied : Environment),
        fueled source environment = .ok supplied →
          ∀ name ∈ requested environment, ∃ content, source name = .ok content := by
  have hdraws := Manifest.ofJson_draws hread
  have hparameter : ∀ p ∈ manifest.parameters, ∀ template ∈ p.rule.templates,
      PlainTemplate template := fun p hp template ht =>
    htemplates template (Manifest.mem_templates.2 (.inl ⟨p, hp, ht⟩))
  have henv := Parameters.resolve_draws hprompter hdraws.parameters hparameter j parameters j'
    hparameters
  refine ⟨fun name hname => ?_, fun _ _ => fueled_congr, fun _ _ hfueled _ => exists_of_fueled hfueled⟩
  rw [Fuel.referenced, mem_sortedTexts]
  exact Environment.resolve_requested henv hdraws htemplates k environment k' henvironment hname

/-- A document with a fuel in a default, one in an outcome, and a template. -/
def notesDocument : Json := .object
  [("parameters", .array
    [.object [("id", .string "$notes"), ("resolver", .object
      [("operation", .string "prompt"), ("type", .string "text"), ("label", .string "Notes?"),
        ("initial", .string "fuel:notes.md")])]]),
    ("variablesResolver", .object
      [("notes", .object [("type", .string "$or"), ("a", .string "$notes"), ("b", .object
        [("type", .string "format"), ("a", .string "x"), ("b", .string "y"),
          ("result", .string "About \x7ba\x7d")])])]),
    ("filesBuildResolver", .object
      [("license", .object [("filePath", .string "LICENSE"), ("content", .object
        [("type", .string "not"), ("a", .string "$notes"), ("b", .string "none"),
          ("result", .string "fuel:mit.txt")])])])]

/-- The manifest of `notesDocument`. -/
def notesManifest : Manifest where
  document := notesDocument
  parameters := [⟨"$notes", .ask ⟨.text, "Notes?", some (.text "fuel:notes.md")⟩⟩]
  tokens :=
    [("notes", .compute (.either (.literal (.text "$notes"))
      (.nested (.format (.literal (.text "x")) (.literal (.text "y")) "About \x7ba\x7d"))))]
  excludes := []
  builders :=
    [("license", ⟨"LICENSE", .compute
      (.condition .differs (.literal (.text "$notes")) (.literal (.text "none"))
        (some (.text "fuel:mit.txt")))⟩)]

/-- For instance, two fuels are asked for, both are referred to, and one that is missing is an
error. -/
theorem notes_and_license_are_referenced :
    ∃ parameters environment j' k',
      (Parameters.resolve notesManifest.parameters Prompter.defaults []).run.run
        (⟨#[], ()⟩ : Journal Unit) = (.ok parameters, j') ∧
      (Environment.resolve notesManifest parameters []).run.run j' = (.ok environment, k') ∧
      requested environment = ["notes.md", "mit.txt"] ∧
      (∀ name ∈ requested environment, name ∈ Fuel.referenced notesDocument) ∧
      (∀ source source' : Fuel.Source,
        (∀ name ∈ requested environment, source name = source' name) →
          fueled source environment = fueled source' environment) ∧
      ∀ (source : Fuel.Source) (supplied : Environment),
        fueled source environment = .ok supplied →
          ∀ name ∈ requested environment, ∃ content, source name = .ok content := by
  have hread : Manifest.ofJson notesDocument = .ok notesManifest := rfl
  have hplain : ∀ template ∈ notesManifest.templates, PlainTemplate template := by decide
  have hgiven : ((Parameters.resolve notesManifest.parameters Prompter.defaults []).run.run
      (⟨#[], ()⟩ : Journal Unit)).1.toOption =
      some (Dict.empty.insert "$notes" (.text "fuel:notes.md")) := by
    decide +kernel
  have hasked : ((Environment.resolve notesManifest
      (Dict.empty.insert "$notes" (.text "fuel:notes.md")) []).run.run
        ((Parameters.resolve notesManifest.parameters Prompter.defaults []).run.run
          (⟨#[], ()⟩ : Journal Unit)).2).1.toOption.map requested =
      some ["notes.md", "mit.txt"] := by
    decide +kernel
  rcases hparameters : (Parameters.resolve notesManifest.parameters Prompter.defaults []).run.run
    (⟨#[], ()⟩ : Journal Unit) with ⟨e | parameters, j'⟩
  all_goals
    rw [hparameters] at hgiven hasked
    cases hgiven
  rcases henvironment : (Environment.resolve notesManifest
    (Dict.empty.insert "$notes" (.text "fuel:notes.md")) []).run.run j' with ⟨e | environment, k'⟩
  all_goals rw [henvironment] at hasked
  · cases hasked
  refine ⟨_, environment, j', k', rfl, henvironment, Option.some.inj hasked, ?_⟩
  exact requested_are_referenced hread hplain Prompter.defaults_plain hparameters henvironment

end Install

end ConfigPack
