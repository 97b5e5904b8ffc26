import ConfigPack.Environment.Resolve
import ConfigPack.Proofs.Dict
import ConfigPack.Proofs.Manifest.Encoding
import ConfigPack.Proofs.Work

/-!
# Sections of a manifest

A section is resolved entry by entry.  Where its keys are distinct, no entry meets what another one
has put under its key, so the entries have their values each on its own (`sectionOf`).  A listener
may give the value of an entry before the entry is resolved.  With listeners that give the values of
some entries and do nothing else to the sections, the result is that of the sections in which these
values are written as literals (`resolve_yields`).
-/

namespace ConfigPack

variable {σ : Type}

namespace Talk

variable {ε δ α β : Type}

/-- A talk that has one result in every journal. -/
def Yields (action : Talk σ ε α) (result : Except ε α) : Prop :=
  ∀ j, (action.run.run j).1 = result

/-- To do nothing yields its value. -/
lemma Yields.pure (a : α) : Yields (pure a : Talk σ ε α) (.ok a) := fun _ => rfl

/-- A line of the log yields nothing else. -/
lemma Yields.log (level : LogLevel) (text : String) :
    Yields (Talk.log level text : Talk σ ε Unit) (.ok ()) := fun _ => rfl

/-- Listeners that always give a value yield it. -/
lemma Yields.withHost {wrap : δ → ε} {action : ExceptT δ (StateM σ) α} {a : α}
    (h : ∀ s, (action.run.run s).1 = .ok a) :
    Yields (Talk.withHost wrap action : Talk σ ε α) (.ok a) := by
  intro j
  exact Result.mapError_eq_ok.2 (h j.host)

/-- A sequence yields the sequence of the results. -/
lemma Yields.bind {action : Talk σ ε α} {next : α → Talk σ ε β} {result : Except ε α}
    {f : α → Except ε β} (h : Yields action result)
    (h' : ∀ a, result = .ok a → Yields (next a) (f a)) : Yields (action >>= next) (result >>= f) := by
  intro j
  rw [Work.run_bind]
  have hfirst := h j
  rcases hx : action.run.run j with ⟨e | a, j₁⟩
  all_goals
    rw [hx] at hfirst
    cases hfirst
  · rfl
  · exact h' a rfl j₁

/-- Behind a step that succeeds the rest goes on with what the step gives. -/
lemma Yields.after {action : Talk σ ε α} {next : α → Talk σ ε β} {a : α} {result : Except ε β}
    (h : Yields action (.ok a)) (h' : Yields (next a) result) : Yields (action >>= next) result :=
  h.bind (f := fun _ => result) fun b hb => by
    cases hb
    exact h'

end Talk

/-- Put a value under a key, if there is one. -/
def Dict.give {α : Type} (d : Dict α) (key : String) : Option α → Dict α
  | some value => d.insert key value
  | none => d

/-- The values that are given for some of the entries of a manifest. -/
structure Seeds where
  token : String → Option String
  exclude : String → Option Bool
  builder : String → Option BuiltFile

/-- No value is given. -/
def Seeds.none : Seeds := ⟨fun _ => .none, fun _ => .none, fun _ => .none⟩

/-- Listeners that give the values of seeds, each before the entry of its key is resolved, and leave
the sections alone otherwise. -/
structure Bus.Gives (bus : Bus σ) (seeds : Seeds) : Prop where
  token : ∀ name rule resolved s, ((bus.emitVariable name rule resolved).run.run s).1 =
    .ok (resolved.give name (seeds.token name))
  exclude : ∀ path rule resolved s, ((bus.emitExclude path rule resolved).run.run s).1 =
    .ok (resolved.give path (seeds.exclude path))
  builder : ∀ key entry resolved s, ((bus.emitBuilder key entry resolved).run.run s).1 =
    .ok (resolved.give key (seeds.builder key))

/-- With no listeners nothing is given. -/
lemma Bus.Gives.nil : Bus.Gives ([] : Bus σ) Seeds.none :=
  ⟨fun _ _ _ _ => rfl, fun _ _ _ _ => rfl, fun _ _ _ _ => rfl⟩

/-- An entry with the literal of the value that is given under its key, if there is one. -/
def seedEntry {α ρ : Type} (given : String → Option α) (literal : α → ρ) (entry : String × ρ) :
    String × ρ :=
  (entry.1, (given entry.1).elim entry.2 literal)

section

variable {α ρ : Type} {given : String → Option α} {literal : α → ρ} {entry : String × ρ}

/-- An entry for which nothing is given stays. -/
lemma seedEntry_of_none (h : given entry.1 = none) : seedEntry given literal entry = entry := by
  rw [seedEntry, h]
  rfl

/-- One for which a value is given is that literal. -/
lemma seedEntry_of_some {value : α} (h : given entry.1 = some value) :
    seedEntry given literal entry = (entry.1, literal value) := by
  rw [seedEntry, h]
  rfl

/-- Where nothing is given all entries stay. -/
lemma map_seedEntry_none (entries : List (String × ρ)) :
    entries.map (seedEntry (fun _ => none) literal) = entries :=
  List.map_id'' (fun _ => rfl) entries

/-- Their keys stay in any case. -/
lemma keys_map_seedEntry (entries : List (String × ρ)) :
    (entries.map (seedEntry given literal)).map Prod.fst = entries.map Prod.fst := by
  rw [List.map_map]
  rfl

end

/-- The manifest in which the values of the seeds are written as literals. -/
def Manifest.seeded (manifest : Manifest) (seeds : Seeds) : Manifest where
  parameters := manifest.parameters
  tokens := manifest.tokens.map (seedEntry seeds.token .literal)
  excludes := manifest.excludes.map (seedEntry seeds.exclude .literal)
  builders := manifest.builders.map
    (seedEntry seeds.builder fun file => ⟨file.path, .literal file.content⟩)
  document := manifest.document

/-- A manifest with no seeds is itself. -/
lemma Manifest.seeded_none (manifest : Manifest) : manifest.seeded Seeds.none = manifest := by
  simp only [seeded, Seeds.none, map_seedEntry_none]

/-- A seeded manifest has different keys when the manifest does. -/
lemma Manifest.DistinctKeys.seeded {manifest : Manifest} (h : manifest.DistinctKeys)
    (seeds : Seeds) : (manifest.seeded seeds).DistinctKeys := by
  constructor
  all_goals simp only [Manifest.seeded, keys_map_seedEntry]
  · exact h.tokens
  · exact h.excludes
  · exact h.builders

namespace Environment

variable {declared : List String} {parameters : ParameterEnv} {manifest : Manifest}

/-- The entries of a section under their keys, or the first failure among them. -/
def sectionOf {α β : Type} (value : String × α → Except ConfigError β)
    (entries : List (String × α)) (start : Dict β) : Except ConfigError (Dict β) :=
  entries.foldlM (fun resolved entry => (value entry).map (resolved.insert entry.1)) start

section

variable {α β : Type} {value : String × α → Except ConfigError β} {entries : List (String × α)}

/-- A section fails with the error of one of its entries. -/
lemma sectionOf_error {start : Dict β} {e : ConfigError}
    (h : sectionOf value entries start = .error e) : ∃ entry ∈ entries, value entry = .error e := by
  obtain ⟨entry, hentry, resolved, hfails⟩ := Result.exists_of_foldlM_error h
  refine ⟨entry, hentry, ?_⟩
  cases hvalue : value entry with
  | error e' =>
    rw [hvalue] at hfails
    injection hfails with hsame
    rw [hsame]
  | ok v =>
    rw [hvalue] at hfails
    cases hfails

/-- A section that is resolved has the value of each entry, and no other keys. -/
lemma sectionOf_ok {resolved : Dict β} (hnodup : (entries.map Prod.fst).Nodup)
    (h : sectionOf value entries Dict.empty = .ok resolved) :
    (∀ entry ∈ entries, ∃ v, value entry = .ok v ∧ resolved.find? entry.1 = some v) ∧
      ∀ key, key ∈ resolved.keys ↔ key ∈ entries.map Prod.fst := by
  obtain ⟨hvalues, hentries⟩ := Dict.mem_foldlM_insert
    (fun a ha b hb hkey => List.inj_on_of_nodup_map hnodup ha hb hkey) h
  refine ⟨fun entry hentry => ?_, fun key => ?_⟩
  · obtain ⟨v, hv⟩ := hvalues entry hentry
    exact ⟨v, hv, Dict.find?_eq_some_iff.2 ((hentries _).2 (.inl ⟨entry, hentry, hv, rfl⟩))⟩
  rw [Dict.mem_keys, List.mem_map]
  constructor
  · rintro ⟨v, hv⟩
    rcases (hentries _).1 hv with ⟨entry, hentry, _, rfl⟩ | ⟨hstart, _⟩
    · exact ⟨entry, hentry, rfl⟩
    · cases hstart
  · rintro ⟨entry, hentry, rfl⟩
    obtain ⟨v, hv⟩ := hvalues entry hentry
    exact ⟨v, (hentries _).2 (.inl ⟨entry, hentry, hv, rfl⟩)⟩

/-- A loop that takes up new keys is a section; nothing is put under a key before its turn. -/
lemma foldlM_yields {step : Dict β → String × α → Talk σ ConfigError (Dict β)}
    (hstep : ∀ resolved entry, entry.1 ∉ resolved.keys →
      Talk.Yields (step resolved entry) ((value entry).map (resolved.insert entry.1)))
    {resolved : Dict β} (hnodup : (entries.map Prod.fst).Nodup)
    (hnew : ∀ entry ∈ entries, entry.1 ∉ resolved.keys) :
    Talk.Yields (entries.foldlM step resolved) (sectionOf value entries resolved) := by
  induction entries generalizing resolved with
  | nil => exact .pure resolved
  | cons entry entries ih =>
    obtain ⟨hfirst, hrest⟩ := List.nodup_cons.1 hnodup
    rw [List.foldlM_cons, sectionOf, List.foldlM_cons]
    refine .bind (hstep _ _ (hnew entry List.mem_cons_self)) fun next hnext => ih hrest ?_
    obtain ⟨v, _, rfl⟩ := Result.map_eq_ok.1 hnext
    intro later hlater hkey
    rcases Dict.mem_keys_insert.1 hkey with hsame | hkey
    · exact hfirst (hsame ▸ List.mem_map_of_mem hlater)
    · exact hnew later (List.mem_cons_of_mem _ hlater) hkey

/-- A loop over entries whose values may be given is the section with the given values. -/
lemma foldlM_yields_seeded {γ : Type} {given : String → Option γ} {literal : γ → α}
    {step : Dict β → String × α → Talk σ ConfigError (Dict β)}
    (hstep : ∀ resolved entry, entry.1 ∉ resolved.keys → Talk.Yields (step resolved entry)
      ((value (seedEntry given literal entry)).map (resolved.insert entry.1)))
    (hnodup : (entries.map Prod.fst).Nodup) :
    Talk.Yields (entries.foldlM step Dict.empty)
      (sectionOf value (entries.map (seedEntry given literal)) Dict.empty) := by
  rw [sectionOf, List.foldlM_map]
  exact foldlM_yields hstep hnodup fun _ _ hkey => by cases hkey

end

/-- The value of a variable that no listener gives. -/
def variableValue (declared : List String) (parameters : ParameterEnv)
    (entry : String × Rule String) : Except ConfigError String :=
  (textOf declared parameters entry.1 entry.2).map (inject parameters)

/-- Whether a path is left out when no listener says so. -/
def excludeValue (declared : List String) (parameters : ParameterEnv)
    (entry : String × Rule Bool) : Except ConfigError Bool :=
  flagOf declared parameters entry.1 entry.2

/-- The file that is built when no listener gives one. -/
def builderValue (declared : List String) (parameters : ParameterEnv)
    (entry : String × BuilderEntry) : Except ConfigError BuiltFile :=
  (textOf declared parameters entry.1 entry.2.content).map fun text =>
    ⟨entry.2.path, inject parameters text⟩

/-- The environment of a manifest that nobody listens to. -/
def sections (manifest : Manifest) (parameters : ParameterEnv) : Except ConfigError Environment := do
  let tokens ← sectionOf (variableValue manifest.ids parameters) manifest.tokens Dict.empty
  let excludes ← sectionOf (excludeValue manifest.ids parameters) manifest.excludes Dict.empty
  let builders ← sectionOf (builderValue manifest.ids parameters) manifest.builders Dict.empty
  return ⟨tokens, excludes, builders⟩

/-- An environment is made of its three sections. -/
lemma sections_eq_ok {environment : Environment} :
    sections manifest parameters = .ok environment ↔
      sectionOf (variableValue manifest.ids parameters) manifest.tokens Dict.empty =
          .ok environment.tokens ∧
        sectionOf (excludeValue manifest.ids parameters) manifest.excludes Dict.empty =
          .ok environment.excludes ∧
        sectionOf (builderValue manifest.ids parameters) manifest.builders Dict.empty =
          .ok environment.builders := by
  simp only [sections, Result.bind_eq_ok]
  constructor
  · rintro ⟨tokens, htokens, excludes, hexcludes, builders, hbuilders, h⟩
    cases h
    exact ⟨htokens, hexcludes, hbuilders⟩
  · rintro ⟨htokens, hexcludes, hbuilders⟩
    exact ⟨_, htokens, _, hexcludes, _, hbuilders, rfl⟩

/-- Where there is no environment, some entry has no value. -/
lemma sections_eq_error {e : ConfigError} (h : sections manifest parameters = .error e) :
    (∃ entry ∈ manifest.tokens, variableValue manifest.ids parameters entry = .error e) ∨
      (∃ entry ∈ manifest.excludes, excludeValue manifest.ids parameters entry = .error e) ∨
      ∃ entry ∈ manifest.builders, builderValue manifest.ids parameters entry = .error e := by
  rcases Result.bind_eq_error.1 h with h | ⟨_, _, h⟩
  · exact .inl (sectionOf_error h)
  rcases Result.bind_eq_error.1 h with h | ⟨_, _, h⟩
  · exact .inr (.inl (sectionOf_error h))
  rcases Result.bind_eq_error.1 h with h | ⟨_, _, h⟩
  · exact .inr (.inr (sectionOf_error h))
  · cases h

/-! ## Entries, with a value that is given or without -/

section

variable {bus : Bus σ} {seeds : Seeds} (hbus : bus.Gives seeds)

include hbus

/-- A token is resolved as if what is given for it stood in the manifest. -/
lemma resolveVariable_yields {resolved : Dict String} {entry : String × Rule String}
    (h : entry.1 ∉ resolved.keys) :
    Talk.Yields (resolveVariable declared parameters bus resolved entry)
      ((variableValue declared parameters (seedEntry seeds.token .literal entry)).map
        (resolved.insert entry.1)) := by
  refine .after (.withHost (hbus.token _ _ _)) ?_
  cases hseed : seeds.token entry.1 with
  | none =>
    rw [seedEntry_of_none hseed]
    simp only [Dict.give, Dict.find?_eq_none_iff.2 h, variableValue]
    cases textOf declared parameters entry.1 entry.2 <;> exact fun _ => rfl
  | some text =>
    rw [seedEntry_of_some hseed]
    simp only [Dict.give, Dict.find?_insert, Dict.insert_insert]
    exact .pure _

/-- So is an exclusion. -/
lemma resolveExclude_yields {resolved : Dict Bool} {entry : String × Rule Bool}
    (h : entry.1 ∉ resolved.keys) :
    Talk.Yields (resolveExclude declared parameters bus resolved entry)
      ((excludeValue declared parameters (seedEntry seeds.exclude .literal entry)).map
        (resolved.insert entry.1)) := by
  refine .after (.withHost (hbus.exclude _ _ _)) ?_
  cases hseed : seeds.exclude entry.1 with
  | none =>
    have hnew : ¬ resolved.contains entry.1 = true := fun hold => h (Dict.contains_iff.1 hold)
    rw [seedEntry_of_none hseed]
    rw [Dict.give, if_neg hnew, excludeValue]
    cases flagOf declared parameters entry.1 entry.2 <;> exact fun _ => rfl
  | some flag =>
    rw [seedEntry_of_some hseed]
    rw [Dict.give, if_pos (Dict.contains_insert.2 (.inl rfl))]
    exact .pure _

/-- So is a file that is built. -/
lemma resolveBuilder_yields {resolved : Dict BuiltFile} {entry : String × BuilderEntry}
    (h : entry.1 ∉ resolved.keys) :
    Talk.Yields (resolveBuilder declared parameters bus resolved entry)
      ((builderValue declared parameters
        (seedEntry seeds.builder (fun file => ⟨file.path, .literal file.content⟩) entry)).map
        (resolved.insert entry.1)) := by
  refine .after (.withHost (hbus.builder _ _ _)) ?_
  cases hseed : seeds.builder entry.1 with
  | none =>
    rw [seedEntry_of_none hseed]
    simp only [Dict.give, Dict.find?_eq_none_iff.2 h, builderValue]
    cases textOf declared parameters entry.1 entry.2.content <;> exact fun _ => rfl
  | some file =>
    rw [seedEntry_of_some hseed]
    simp only [Dict.give, Dict.find?_insert, Dict.insert_insert]
    exact .pure _

/-- With listeners that give the values of seeds, a manifest has the environment of the manifest in
which these are literals. -/
lemma resolve_yields (hkeys : manifest.DistinctKeys) :
    Talk.Yields (resolve manifest parameters bus) (sections (manifest.seeded seeds) parameters) := by
  refine .bind (foldlM_yields_seeded (fun _ _ => resolveVariable_yields hbus) hkeys.tokens)
    fun tokens _ => ?_
  refine .bind (foldlM_yields_seeded (fun _ _ => resolveExclude_yields hbus) hkeys.excludes)
    fun excludes _ => ?_
  refine .bind (foldlM_yields_seeded (fun _ _ => resolveBuilder_yields hbus) hkeys.builders)
    fun builders _ => ?_
  exact .after (.log _ _) (.pure _)

end

/-- Where nobody listens, a manifest has the environment of its sections. -/
lemma resolve_nil_yields (hkeys : manifest.DistinctKeys) :
    Talk.Yields (resolve manifest parameters ([] : Bus σ)) (sections manifest parameters) := by
  have h : Talk.Yields (resolve manifest parameters ([] : Bus σ))
      (sections (manifest.seeded Seeds.none) parameters) := resolve_yields .nil hkeys
  rwa [Manifest.seeded_none] at h

end Environment

end ConfigPack
