import ConfigPack.Proofs.Environment.Sections
import ConfigPack.Proofs.Parameters.Equations
import ConfigPack.Proofs.Plan

/-!
# References of a manifest

When the parameters of a manifest are resolved every declared id has a value, so no expression of
its sections names a parameter without one.  What is left to go wrong without listeners is the
evaluation of an expression; where none goes wrong every section gives a value for each of its keys
and for no other (`resolve_meets_no_unresolved`).
-/

namespace ConfigPack

variable {σ : Type} {bus : Bus σ} {parameters : ParameterEnv}

/-- Listeners that take no parameter away. -/
def Bus.KeepsParameters (bus : Bus σ) : Prop :=
  ∀ l ∈ bus, ∀ p env env' s s', (l.onParameter p env).run.run s = (.ok env', s') →
    ∀ id, env.contains id = true → env'.contains id = true

/-- A bus of listeners that keep parameters keeps those that have values. -/
lemma Bus.KeepsParameters.emitParameter (hbus : bus.KeepsParameters) {p : Parameter}
    {env env' : ParameterEnv} {s s' : σ}
    (h : (bus.emitParameter p env).run.run s = (.ok env', s')) {id : String}
    (hid : env.contains id = true) : env'.contains id = true := by
  refine Bus.emit_related
    (R := fun a b : ParameterEnv => a.contains id = true → b.contains id = true)
    (fun _ h => h) (fun _ _ _ hab hbc ha => hbc (hab ha)) (fun l hl a b s s' hrun => ?_) h hid
  exact hbus l hl p a b s s' hrun id

namespace Talk

variable {ε δ α β : Type}

/-- What a talk fails with. -/
def Throws (action : Talk σ ε α) (P : ε → Prop) : Prop :=
  ∀ j e j', action.run.run j = (.error e, j') → P e

variable {P : ε → Prop}

/-- To do nothing fails with no error. -/
lemma Throws.pure (a : α) : Throws (pure a : Talk σ ε α) P := by
  intro j e j' hrun
  cases hrun

/-- Nor does a line of the log. -/
lemma Throws.log (level : LogLevel) (text : String) :
    Throws (Talk.log level text : Talk σ ε Unit) P := by
  intro j e j' hrun
  cases hrun

/-- A result that is known fails with its error. -/
lemma Throws.liftM {result : Except ε α} (h : ∀ e, result = .error e → P e) :
    Throws (liftM result : Talk σ ε α) P := by
  intro j e j' hrun
  exact h e (Prod.mk.inj hrun).1

/-- Listeners fail with what stands for their errors. -/
lemma Throws.withHost {wrap : δ → ε} (action : ExceptT δ (StateM σ) α) (h : ∀ d, P (wrap d)) :
    Throws (Talk.withHost wrap action : Talk σ ε α) P := by
  intro j e j' hrun
  obtain ⟨d, _, rfl⟩ := Result.mapError_eq_error.1 (Prod.mk.inj hrun).1
  exact h d

/-- A sequence fails as one of its steps does. -/
lemma Throws.bind {action : Talk σ ε α} {next : α → Talk σ ε β} (h : Throws action P)
    (h' : ∀ a, Throws (next a) P) : Throws (action >>= next) P := by
  intro j e j' hrun
  rw [Work.run_bind] at hrun
  rcases hx : action.run.run j with ⟨e₁ | a, j₁⟩
  all_goals rw [hx] at hrun
  · cases hrun
    exact h j _ _ hx
  · exact h' a j₁ e j' hrun

/-- A loop fails as one of its steps does. -/
lemma Throws.foldlM {f : β → α → Talk σ ε β} (h : ∀ b a, Throws (f b a) P) :
    ∀ (items : List α) (b : β), Throws (items.foldlM f b) P
  | [], b => .pure b
  | a :: items, b => by
    rw [List.foldlM_cons]
    exact .bind (h b a) fun b' => foldlM h items b'

/-- What yields a result fails with its error. -/
lemma Yields.throws {action : Talk σ ε α} {result : Except ε α} (h : Yields action result)
    (hP : ∀ e, result = .error e → P e) : Throws action P := by
  intro j e j' hrun
  have hresult := h j
  rw [hrun] at hresult
  exact hP e hresult.symm

/-- It gives its value. -/
lemma Yields.gives {action : Talk σ ε α} {result : Except ε α} {Q : α → Prop}
    (h : Yields action result) (hQ : ∀ a, result = .ok a → Q a) : Gives action Q := by
  intro j a j' hrun
  have hresult := h j
  rw [hrun] at hresult
  exact hQ a hresult.symm

end Talk

namespace Parameters

variable {declared : List String} {prompter : Prompter σ} {j j' : Journal σ}

/-- With listeners that take none away, resolving parameters gives a value to each of them. -/
lemma foldlM_contains (hbus : bus.KeepsParameters) {items : List Parameter}
    {env env' : ParameterEnv}
    (h : (items.foldlM (resolveNext declared prompter bus) env).run.run j = (.ok env', j')) :
    ∀ id, id ∈ items.map Parameter.id ∨ env.contains id = true → env'.contains id = true := by
  induction items generalizing env j with
  | nil =>
    cases h
    simp
  | cons p items ih =>
    rw [List.foldlM_cons] at h
    obtain ⟨env₁, j₁, hnext, hrest⟩ := Work.run_bind_ok.1 h
    -- its own id has a value now, and those before it still have theirs
    have hstep : env₁.contains p.id = true ∧
        ∀ id, env.contains id = true → env₁.contains id = true := by
      obtain ⟨heard, s, hheard, ⟨hseeded, rfl⟩ | ⟨_, value, _, _, _, rfl⟩⟩ := resolveNext_ok hnext
      · exact ⟨hseeded, fun id hid => hbus.emitParameter hheard hid⟩
      · refine ⟨Dict.contains_insert.2 (.inl rfl), fun id hid => ?_⟩
        exact Dict.contains_insert.2 (.inr (hbus.emitParameter hheard hid))
    intro id hid
    apply ih hrest
    rw [List.map_cons, List.mem_cons] at hid
    rcases hid with (rfl | hid) | hid
    · exact .inr hstep.1
    · exact .inl hid
    · exact .inr (hstep.2 id hid)

/-- Where all declared ids have values, only the evaluation of an expression can fail. -/
lemma evaluate_of_contains {owner : String} {node : Expr}
    (hall : ∀ id ∈ declared, parameters.contains id = true) :
    evaluate declared parameters owner node =
      (node.evaluate parameters (.bool true)).mapError .mismatch := by
  have hcheck : checkReferences node owner declared parameters = .ok () :=
    checkReferences_eq_ok.2 fun id hid _ => hall id hid
  rw [evaluate, hcheck]
  rfl

end Parameters

/-- The expression of a rule, if it has one. -/
def Rule.node? {α : Type} : Rule α → Option Expr
  | literal _ => none
  | compute node => some node

/-- The expressions of the variables, the excludes and the built files. -/
def Manifest.sectionNodes (manifest : Manifest) : List Expr :=
  manifest.tokens.filterMap (fun e => e.2.node?) ++
    manifest.excludes.filterMap (fun e => e.2.node?) ++
    manifest.builders.filterMap (fun e => e.2.content.node?)

/-- The expressions of the sections are those of their entries. -/
lemma Manifest.mem_sectionNodes {manifest : Manifest} {node : Expr} :
    node ∈ manifest.sectionNodes ↔
      (∃ e ∈ manifest.tokens, e.2.node? = some node) ∨
        (∃ e ∈ manifest.excludes, e.2.node? = some node) ∨
        ∃ e ∈ manifest.builders, e.2.content.node? = some node := by
  simp only [Manifest.sectionNodes, List.mem_append, List.mem_filterMap, or_assoc]

/-- A section has its keys from the fields of the object that it is read from. -/
lemma Json.keys_of_forms {α : Type} {Form : Json → α → Prop} {fields : List (String × Json)}
    {entries : List (String × α)}
    (h : List.Forall₂ (fun field entry => field.1 = entry.1 ∧ Form field.2 entry.2) fields
      entries) : entries.map Prod.fst = fields.map Prod.fst := by
  induction h with
  | nil => rfl
  | cons hfirst _ ih => rw [List.map_cons, List.map_cons, hfirst.1, ih]

/-- Where the names in a document are distinct, the keys of its sections are. -/
lemma Json.Section.nodup {α : Type} {Form : Json → α → Prop} {document : Json} {name : String}
    {entries : List (String × α)} (hdistinct : document.Distinct)
    (h : Json.Section Form (document.field? name) entries) : (entries.map Prod.fst).Nodup := by
  generalize hfield : document.field? name = field at h
  cases h with
  | absent | null => exact .nil
  | @object inner _ hforms =>
    obtain ⟨fields, rfl⟩ := Json.object_of_field? hfield
    cases hdistinct with
    | object _ hall =>
      obtain ⟨front, back, rfl, _⟩ := List.lookup_eq_some_iff.1 hfield
      have hinner : (Json.object inner).Distinct := hall (name, .object inner) (by simp)
      cases hinner with
      | object hnodup _ => rwa [Json.keys_of_forms hforms]

namespace Environment

variable {declared : List String} {manifest : Manifest}

/-! ## What can fail -/

/-- A result that there is when an expression, if any, has a value, and that fails as its
evaluation does. -/
structure Follows {α : Type} (parameters : ParameterEnv) (node? : Option Expr)
    (result : Except ConfigError α) : Prop where
  ok : ∀ a, result = .ok a →
    ∀ node, node? = some node → ∃ v, node.evaluate parameters (.bool true) = .ok v
  error : ∀ e, result = .error e →
    ∃ node m, node? = some node ∧ node.evaluate parameters (.bool true) = .error m ∧
      e = .mismatch m

/-- A value that is there without an expression fails with no evaluation. -/
lemma Follows.none {α : Type} (a : α) : Follows parameters none (.ok a) :=
  ⟨fun _ _ _ h => (by cases h), fun _ h => by cases h⟩

/-- What is made of a result follows as well. -/
lemma Follows.map {α β : Type} {node? : Option Expr} {result : Except ConfigError α}
    (h : Follows parameters node? result) (f : α → β) :
    Follows parameters node? (result.map f) := by
  cases result with
  | ok a => exact ⟨fun _ _ => h.ok a rfl, fun e he => by cases he⟩
  | error e =>
    refine ⟨fun b hb => (by cases hb), fun e' he => ?_⟩
    cases he
    exact h.error e rfl

section

variable (hall : ∀ id ∈ declared, parameters.contains id = true)

include hall

/-- The evaluation of an expression follows it. -/
lemma follows_evaluate (owner : String) (node : Expr) :
    Follows parameters (some node) (Parameters.evaluate declared parameters owner node) := by
  rw [Parameters.evaluate_of_contains hall]
  constructor
  · intro v hv node' hnode
    cases hnode
    exact ⟨v, Result.mapError_eq_ok.1 hv⟩
  · intro e he
    obtain ⟨m, hm, rfl⟩ := Result.mapError_eq_error.1 he
    exact ⟨node, m, rfl, hm, rfl⟩

/-- The text of a rule follows its expression. -/
lemma follows_textOf (owner : String) (rule : Rule String) :
    Follows parameters rule.node? (textOf declared parameters owner rule) := by
  cases rule with
  | literal text => exact .none text
  | compute node =>
    exact (follows_evaluate hall owner node).map fun v => if v.isTruthy then v.display else ""

/-- So does its flag. -/
lemma follows_flagOf (owner : String) (rule : Rule Bool) :
    Follows parameters rule.node? (flagOf declared parameters owner rule) := by
  cases rule with
  | literal flag => exact .none flag
  | compute node => exact (follows_evaluate hall owner node).map Value.isTruthy

/-- The value of a token follows its rule. -/
lemma follows_variableValue (entry : String × Rule String) :
    Follows parameters entry.2.node? (variableValue declared parameters entry) :=
  (follows_textOf hall entry.1 entry.2).map _

/-- So does an exclusion. -/
lemma follows_excludeValue (entry : String × Rule Bool) :
    Follows parameters entry.2.node? (excludeValue declared parameters entry) :=
  follows_flagOf hall entry.1 entry.2

/-- So does a file that is built, by the rule of its content. -/
lemma follows_builderValue (entry : String × BuilderEntry) :
    Follows parameters entry.2.content.node? (builderValue declared parameters entry) :=
  (follows_textOf hall entry.1 entry.2.content).map _

end

/-- A section whose values follow their expressions has a value for each of its keys and for no
other, and so do its expressions. -/
lemma sectionOf_follows {α β : Type} {value : String × α → Except ConfigError β}
    {entries : List (String × α)} (node? : α → Option Expr)
    (hfollows : ∀ entry, Follows parameters (node? entry.2) (value entry)) {resolved : Dict β}
    (hnodup : (entries.map Prod.fst).Nodup)
    (h : sectionOf value entries Dict.empty = .ok resolved) :
    (∀ key, key ∈ resolved.keys ↔ key ∈ entries.map Prod.fst) ∧
      ∀ entry ∈ entries, ∀ node, node? entry.2 = some node →
        ∃ v, node.evaluate parameters (.bool true) = .ok v := by
  obtain ⟨hvalues, hkeys⟩ := sectionOf_ok hnodup h
  refine ⟨hkeys, fun entry hentry => ?_⟩
  obtain ⟨v, hv, _⟩ := hvalues entry hentry
  exact (hfollows entry).ok v hv

/-- The environment has the keys of the sections of the manifest and no other. -/
structure HasKeysOf (environment : Environment) (manifest : Manifest) : Prop where
  tokens : ∀ key, key ∈ environment.tokens.keys ↔ key ∈ manifest.tokens.map Prod.fst
  excludes : ∀ key, key ∈ environment.excludes.keys ↔ key ∈ manifest.excludes.map Prod.fst
  builders : ∀ key, key ∈ environment.builders.keys ↔ key ∈ manifest.builders.map Prod.fst

/-- Some expression of the sections is not evaluated, for the reason that is the error. -/
def Mismatches (manifest : Manifest) (parameters : ParameterEnv) (e : ConfigError) : Prop :=
  ∃ m, e = .mismatch m ∧
    ∃ node ∈ manifest.sectionNodes, node.evaluate parameters (.bool true) = .error m

section

variable (hall : ∀ id ∈ manifest.ids, parameters.contains id = true)
  (hkeys : manifest.DistinctKeys)

include hall hkeys

/-- With no listeners only mismatches in the manifest's expressions are errors. -/
lemma resolve_nil_throws :
    Talk.Throws (resolve manifest parameters ([] : Bus σ)) (Mismatches manifest parameters) := by
  refine (resolve_nil_yields hkeys).throws fun e he => ?_
  rcases sections_eq_error he with ⟨entry, hentry, h⟩ | ⟨entry, hentry, h⟩ | ⟨entry, hentry, h⟩
  · obtain ⟨node, m, hnode, hfails, rfl⟩ := (follows_variableValue hall entry).error e h
    exact ⟨m, rfl, node, Manifest.mem_sectionNodes.2 (.inl ⟨entry, hentry, hnode⟩), hfails⟩
  · obtain ⟨node, m, hnode, hfails, rfl⟩ := (follows_excludeValue hall entry).error e h
    exact ⟨m, rfl, node, Manifest.mem_sectionNodes.2 (.inr (.inl ⟨entry, hentry, hnode⟩)), hfails⟩
  · obtain ⟨node, m, hnode, hfails, rfl⟩ := (follows_builderValue hall entry).error e h
    exact ⟨m, rfl, node, Manifest.mem_sectionNodes.2 (.inr (.inr ⟨entry, hentry, hnode⟩)), hfails⟩

/-- With no listeners an environment has the keys of the manifest, and all expressions have values.
-/
lemma resolve_nil_gives :
    Talk.Gives (resolve manifest parameters ([] : Bus σ)) fun environment =>
      environment.HasKeysOf manifest ∧
        ∀ node ∈ manifest.sectionNodes, ∃ v, node.evaluate parameters (.bool true) = .ok v := by
  refine (resolve_nil_yields hkeys).gives fun environment henvironment => ?_
  obtain ⟨htokens, hexcludes, hbuilders⟩ := sections_eq_ok.1 henvironment
  obtain ⟨htokenKeys, htokenNodes⟩ :=
    sectionOf_follows Rule.node? (follows_variableValue hall) hkeys.tokens htokens
  obtain ⟨hexcludeKeys, hexcludeNodes⟩ :=
    sectionOf_follows Rule.node? (follows_excludeValue hall) hkeys.excludes hexcludes
  obtain ⟨hbuilderKeys, hbuilderNodes⟩ := sectionOf_follows
    (fun builder : BuilderEntry => builder.content.node?) (follows_builderValue hall)
    hkeys.builders hbuilders
  refine ⟨⟨htokenKeys, hexcludeKeys, hbuilderKeys⟩, fun node hnode => ?_⟩
  rcases Manifest.mem_sectionNodes.1 hnode with
    ⟨entry, hentry, h⟩ | ⟨entry, hentry, h⟩ | ⟨entry, hentry, h⟩
  · exact htokenNodes entry hentry node h
  · exact hexcludeNodes entry hentry node h
  · exact hbuilderNodes entry hentry node h

end

/-! ## No reference without a value -/

section

variable (hall : ∀ id ∈ declared, parameters.contains id = true)

/-- An error that is no reference to a parameter without a value. -/
def Resolved (e : ConfigError) : Prop := ∀ owner reference, e ≠ .unresolvedReference owner reference

/-- What a listener says is no missing reference. -/
lemma resolved_hook (abort : Abort) : Resolved (.hook abort) := fun _ _ h => by cases h

/-- Nor is the failure of an evaluation. -/
lemma Follows.resolved {α : Type} {node? : Option Expr} {result : Except ConfigError α}
    (h : Follows parameters node? result) (e : ConfigError) (he : result = .error e) :
    Resolved e := by
  obtain ⟨_, m, _, _, rfl⟩ := h.error e he
  exact fun _ _ h => by cases h

include hall

/-- No token fails for a missing reference. -/
lemma resolveVariable_throws (bus : Bus σ) (resolved : Dict String)
    (entry : String × Rule String) :
    Talk.Throws (resolveVariable declared parameters bus resolved entry) Resolved := by
  refine .bind (.withHost _ resolved_hook) fun resolved => ?_
  split
  · exact .bind (.pure _) fun text => .pure _
  · exact .bind (.liftM (follows_textOf hall _ _).resolved) fun text => .pure _

/-- Nor does an exclusion. -/
lemma resolveExclude_throws (bus : Bus σ) (resolved : Dict Bool) (entry : String × Rule Bool) :
    Talk.Throws (resolveExclude declared parameters bus resolved entry) Resolved := by
  refine .bind (.withHost _ resolved_hook) fun resolved => ?_
  split
  · exact .pure _
  · exact .bind (.liftM (follows_flagOf hall _ _).resolved) fun flag => .pure _

/-- Nor does a file that is built. -/
lemma resolveBuilder_throws (bus : Bus σ) (resolved : Dict BuiltFile)
    (entry : String × BuilderEntry) :
    Talk.Throws (resolveBuilder declared parameters bus resolved entry) Resolved := by
  refine .bind (.withHost _ resolved_hook) fun resolved => ?_
  split
  · exact .bind (.pure _) fun built => .pure _
  · exact .bind (.liftM (follows_textOf hall _ _).resolved) fun text => .pure _

end

/-- Over parameters that all have values, whoever listens, no reference is without a value. -/
lemma resolve_throws (hall : ∀ id ∈ manifest.ids, parameters.contains id = true) (bus : Bus σ) :
    Talk.Throws (resolve manifest parameters bus) Resolved := by
  refine .bind (.foldlM (resolveVariable_throws hall bus) _ _) fun tokens => ?_
  refine .bind (.foldlM (resolveExclude_throws hall bus) _ _) fun excludes => ?_
  refine .bind (.foldlM (resolveBuilder_throws hall bus) _ _) fun builders => ?_
  exact .bind (.log _ _) fun _ => .pure _

/-- Once the parameters of a manifest are resolved, with listeners that take none away, its sections
never meet a reference without a value, whoever listens then.  Where nobody does, they fail exactly
when the evaluation of one of their expressions does, and with its reason; otherwise there is a
value for each of their keys and for no other. -/
theorem resolve_meets_no_unresolved {document : Json} {prompter : Prompter σ} {j j' : Journal σ}
    (hdocument : document.Distinct) (hmanifest : Manifest.ofJson document = .ok manifest)
    (hbus : bus.KeepsParameters)
    (hparameters : (Parameters.resolve manifest.parameters prompter bus).run.run j =
      (.ok parameters, j')) :
    (∀ (listeners : Bus σ) k k' owner reference,
      (resolve manifest parameters listeners).run.run k ≠
        (.error (.unresolvedReference owner reference), k')) ∧
    ∀ k : Journal σ,
      (∀ e k', (resolve manifest parameters []).run.run k = (.error e, k') →
        Mismatches manifest parameters e) ∧
      ((∃ e k', (resolve manifest parameters []).run.run k = (.error e, k')) ↔
        ∃ node ∈ manifest.sectionNodes, ∃ m, node.evaluate parameters (.bool true) = .error m) ∧
      ∀ environment k', (resolve manifest parameters []).run.run k = (.ok environment, k') →
        environment.HasKeysOf manifest := by
  have hall : ∀ id ∈ manifest.ids, parameters.contains id = true := by
    intro id hid
    exact Parameters.foldlM_contains hbus hparameters id (.inl hid)
  obtain ⟨hform, _⟩ := Manifest.ofJson_iff.1 hmanifest
  have hkeys : manifest.DistinctKeys :=
    ⟨hform.tokens.nodup hdocument, hform.excludes.nodup hdocument, hform.builders.nodup hdocument⟩
  refine ⟨fun listeners k k' owner reference hrun => ?_, fun k => ⟨?_, ⟨?_, ?_⟩, ?_⟩⟩
  · exact resolve_throws hall listeners k _ k' hrun owner reference rfl
  · exact resolve_nil_throws hall hkeys k
  · rintro ⟨e, k', hrun⟩
    obtain ⟨m, _, node, hnode, hfails⟩ := resolve_nil_throws hall hkeys k e k' hrun
    exact ⟨node, hnode, m, hfails⟩
  · rintro ⟨node, hnode, m, hfails⟩
    rcases hrun : (resolve manifest parameters []).run.run k with ⟨e | environment, k'⟩
    · exact ⟨e, k', rfl⟩
    · obtain ⟨v, hv⟩ := (resolve_nil_gives hall hkeys k environment k' hrun).2 node hnode
      rw [hv] at hfails
      cases hfails
  · intro environment k' hrun
    exact (resolve_nil_gives hall hkeys k environment k' hrun).1

/-- A variable looks for a text in the answer of a question that is no text. -/
def imageDocument : Json :=
  .object [("parameters", .array [
      .object [("id", .string "$docker"), ("resolver", .object [("operation", .string "prompt"),
        ("type", .string "confirm"), ("label", .string "Docker?"), ("initial", .bool true)])],
      .object [("id", .string "$base"), ("resolver", .object [("operation", .string "prompt"),
        ("type", .string "text"), ("label", .string "Base")])]]),
    ("variablesResolver", .object [("base", .string "$base"), ("image", .object
      [("type", .string "contain"), ("a", .string "$docker"), ("b", .string "$base"),
        ("result", .string "slim")])])]

/-- An expression that looks for a text in a flag. -/
def imageNode : Expr :=
  .condition .contains (.literal (.text "$docker")) (.literal (.text "$base")) (some (.text "slim"))

/-- A manifest whose second parameter a listener sets. -/
def imageManifest : Manifest where
  parameters := [⟨"$docker", .ask ⟨.confirm, "Docker?", some (.bool true)⟩⟩,
    ⟨"$base", .ask ⟨.text, "Base", none⟩⟩]
  tokens := [("base", .literal "$base"), ("image", .compute imageNode)]
  excludes := []
  builders := []
  document := imageDocument

/-- A listener that knows the base. -/
def baseListener : Listener Unit where
  onParameter p env :=
    if p.id = "$base" then pure (env.insert p.id (.text "alpine")) else pure env

/-- All references are resolved, and the section fails in a comparison. -/
theorem image_meets_mismatch :
    ∃ parameters j', (Parameters.resolve imageManifest.parameters Prompter.defaults
        [baseListener]).run.run (⟨#[], ()⟩ : Journal Unit) = (.ok parameters, j') ∧
      ∀ k : Journal Unit, ∃ e k',
        (resolve imageManifest parameters []).run.run k = (.error e, k') ∧
          Mismatches imageManifest parameters e := by
  have hdocument : imageDocument.Distinct := by
    simp [imageDocument]
  have hbus : Bus.KeepsParameters [baseListener] := by
    intro l hl p env env' s s' hrun id hid
    obtain rfl := List.mem_singleton.1 hl
    simp only [baseListener] at hrun
    split at hrun
    all_goals cases hrun
    · exact Dict.contains_insert.2 (.inr hid)
    · exact hid
  have hgiven : ((Parameters.resolve imageManifest.parameters Prompter.defaults
      [baseListener]).run.run (⟨#[], ()⟩ : Journal Unit)).1.toOption.map
      (imageNode.evaluate · (.bool true)) = some (.error ⟨.bool true, .text "alpine"⟩) := by
    decide +kernel
  rcases hrun : (Parameters.resolve imageManifest.parameters Prompter.defaults
    [baseListener]).run.run (⟨#[], ()⟩ : Journal Unit) with ⟨e | parameters, j'⟩
  · rw [hrun] at hgiven
    cases hgiven
  rw [hrun] at hgiven
  refine ⟨parameters, j', rfl, fun k => ?_⟩
  have hread : Manifest.ofJson imageDocument = .ok imageManifest := rfl
  obtain ⟨hreason, hiff, _⟩ := (resolve_meets_no_unresolved hdocument hread hbus hrun).2 k
  obtain ⟨e, k', hfails⟩ := hiff.2
    ⟨imageNode, by simp [Manifest.sectionNodes, imageManifest, Rule.node?], _,
      Option.some.inj hgiven⟩
  exact ⟨e, k', hfails, hreason e k' hfails⟩

end Environment

end ConfigPack
