import ConfigPack.Proofs.Environment.References

/-!
# Seeds

A value that a listener gives for an entry counts as the literal of the entry would: a run with
listeners that give the values of some entries has the result of a run without listeners on the
manifest in which these values are written as literals (`resolve_seeded`).  So what a manifest
declares for an entry with a seed does not matter, and every other entry keeps its own value.
-/

namespace ConfigPack

variable {σ τ : Type}

/-- The listener that gives the values of the seeds. -/
def Seeds.listener (seeds : Seeds) : Listener σ where
  onVariable name _ resolved := pure (resolved.give name (seeds.token name))
  onExclude path _ resolved := pure (resolved.give path (seeds.exclude path))
  onBuilder key _ resolved := pure (resolved.give key (seeds.builder key))

/-- The listener of some seeds gives them. -/
lemma Bus.Gives.listener (seeds : Seeds) : Bus.Gives ([seeds.listener] : Bus σ) seeds :=
  ⟨fun _ _ _ _ => rfl, fun _ _ _ _ => rfl, fun _ _ _ _ => rfl⟩

/-- A manifest that is read has no key twice in a section. -/
lemma Manifest.DistinctKeys.of_ofJson {document : Json} {manifest : Manifest}
    (hdocument : document.Distinct) (hmanifest : Manifest.ofJson document = .ok manifest) :
    manifest.DistinctKeys := by
  obtain ⟨hform, _⟩ := Manifest.ofJson_iff.1 hmanifest
  exact ⟨hform.tokens.nodup hdocument, hform.excludes.nodup hdocument,
    hform.builders.nodup hdocument⟩

/-! ## Manifests that differ where values are given -/

section

variable {α ρ : Type} {given : String → Option α} {literal : α → ρ}
  {entries others : List (String × ρ)}

/-- Sections with the same keys in the same order, and the same entries but for those whose values
are given. -/
def AgreeOff (given : String → Option α) (entries others : List (String × ρ)) : Prop :=
  List.Forall₂ (fun a b => b.1 = a.1 ∧ (given a.1 = none → b.2 = a.2)) entries others

/-- Entries that agree but for what is given have the same keys. -/
lemma AgreeOff.keys (h : AgreeOff given entries others) :
    others.map Prod.fst = entries.map Prod.fst := by
  induction h with
  | nil => rfl
  | cons hfirst _ ih => rw [List.map_cons, List.map_cons, hfirst.1, ih]

/-- They are the same with what is given. -/
lemma AgreeOff.map_seedEntry (h : AgreeOff given entries others) :
    others.map (seedEntry given literal) = entries.map (seedEntry given literal) := by
  induction h with
  | nil => rfl
  | @cons a b _ _ hfirst _ ih =>
    obtain ⟨hkey, hrule⟩ := hfirst
    have hsame : seedEntry given literal b = seedEntry given literal a := by
      refine Prod.ext hkey ?_
      rw [seedEntry, seedEntry, hkey]
      cases hgiven : given a.1 with
      | none => exact hrule hgiven
      | some value => rfl
    rw [List.map_cons, List.map_cons, hsame, ih]

end

/-- Manifests that differ in what they declare for the entries with seeds only. -/
structure Seeds.SameRest (seeds : Seeds) (manifest other : Manifest) : Prop where
  ids : other.ids = manifest.ids
  tokens : AgreeOff seeds.token manifest.tokens other.tokens
  excludes : AgreeOff seeds.exclude manifest.excludes other.excludes
  builders : AgreeOff seeds.builder manifest.builders other.builders

/-- Manifests with the same rest both have different keys, or neither. -/
lemma Seeds.SameRest.distinctKeys {seeds : Seeds} {manifest other : Manifest}
    (h : seeds.SameRest manifest other) (hkeys : manifest.DistinctKeys) : other.DistinctKeys where
  tokens := h.tokens.keys ▸ hkeys.tokens
  excludes := h.excludes.keys ▸ hkeys.excludes
  builders := h.builders.keys ▸ hkeys.builders

namespace Environment

variable {bus : Bus σ} {seeds : Seeds} {manifest : Manifest} {parameters : ParameterEnv}

/-- Their sections are the same with the seeds. -/
lemma sections_seeded_congr {other : Manifest} (h : seeds.SameRest manifest other) :
    sections (other.seeded seeds) parameters = sections (manifest.seeded seeds) parameters := by
  have hids : (other.seeded seeds).ids = (manifest.seeded seeds).ids := h.ids
  simp only [sections, hids]
  simp only [Manifest.seeded, h.tokens.map_seedEntry, h.excludes.map_seedEntry,
    h.builders.map_seedEntry]

/-! ## Entries without a seed -/

section

variable {α β γ : Type} {value : String × α → Except ConfigError β} {given : String → Option γ}
  {literal : γ → α} {entries : List (String × α)}

/-- An entry for which nothing is given has its own value. -/
lemma sectionOf_seeded_ok {resolved : Dict β} (hnodup : (entries.map Prod.fst).Nodup)
    (h : sectionOf value (entries.map (seedEntry given literal)) Dict.empty = .ok resolved)
    {entry : String × α} (hentry : entry ∈ entries) (hnone : given entry.1 = none) :
    ∃ v, value entry = .ok v ∧ resolved.find? entry.1 = some v := by
  rw [← keys_map_seedEntry] at hnodup
  obtain ⟨v, hv, hfound⟩ := (sectionOf_ok hnodup h).1 _ (List.mem_map_of_mem hentry)
  rw [seedEntry_of_none hnone] at hv hfound
  exact ⟨v, hv, hfound⟩

/-- A literal has a value, so an entry without one has no seed. -/
lemma unseeded_of_error {e : ConfigError}
    (hliteral : ∀ key x, ∃ v, value (key, literal x) = .ok v)
    (h : ∃ entry ∈ entries.map (seedEntry given literal), value entry = .error e) :
    ∃ entry ∈ entries, given entry.1 = none ∧ value entry = .error e := by
  obtain ⟨_, hseeded, hfails⟩ := h
  obtain ⟨entry, hentry, rfl⟩ := List.mem_map.1 hseeded
  cases hgiven : given entry.1 with
  | none =>
    rw [seedEntry_of_none hgiven] at hfails
    exact ⟨entry, hentry, hgiven, hfails⟩
  | some x =>
    obtain ⟨v, hv⟩ := hliteral entry.1 x
    rw [seedEntry_of_some hgiven, hv] at hfails
    cases hfails

end

/-- Each entry without a seed has the value that its rule gives. -/
structure KeepsRest (environment : Environment) (manifest : Manifest) (seeds : Seeds)
    (parameters : ParameterEnv) : Prop where
  tokens : ∀ entry ∈ manifest.tokens, seeds.token entry.1 = none →
    ∃ text, variableValue manifest.ids parameters entry = .ok text ∧
      environment.tokens.find? entry.1 = some text
  excludes : ∀ entry ∈ manifest.excludes, seeds.exclude entry.1 = none →
    ∃ flag, excludeValue manifest.ids parameters entry = .ok flag ∧
      environment.excludes.find? entry.1 = some flag
  builders : ∀ entry ∈ manifest.builders, seeds.builder entry.1 = none →
    ∃ file, builderValue manifest.ids parameters entry = .ok file ∧
      environment.builders.find? entry.1 = some file

/-- The rule of some entry without a seed fails with an error. -/
def FailsInRest (manifest : Manifest) (seeds : Seeds) (parameters : ParameterEnv)
    (e : ConfigError) : Prop :=
  (∃ entry ∈ manifest.tokens, seeds.token entry.1 = none ∧
    variableValue manifest.ids parameters entry = .error e) ∨
  (∃ entry ∈ manifest.excludes, seeds.exclude entry.1 = none ∧
    excludeValue manifest.ids parameters entry = .error e) ∨
  ∃ entry ∈ manifest.builders, seeds.builder entry.1 = none ∧
    builderValue manifest.ids parameters entry = .error e

/-- So an environment keeps the rest of the manifest. -/
lemma keepsRest_of_sections (hkeys : manifest.DistinctKeys) {environment : Environment}
    (h : sections (manifest.seeded seeds) parameters = .ok environment) :
    environment.KeepsRest manifest seeds parameters := by
  obtain ⟨htokens, hexcludes, hbuilders⟩ := sections_eq_ok.1 h
  constructor
  · intro entry
    exact sectionOf_seeded_ok hkeys.tokens htokens
  · intro entry
    exact sectionOf_seeded_ok hkeys.excludes hexcludes
  · intro entry
    exact sectionOf_seeded_ok hkeys.builders hbuilders

/-- And it fails only in that rest. -/
lemma failsInRest_of_sections {e : ConfigError}
    (h : sections (manifest.seeded seeds) parameters = .error e) :
    FailsInRest manifest seeds parameters e :=
  (sections_eq_error h).imp (unseeded_of_error fun _ _ => ⟨_, rfl⟩) <|
    Or.imp (unseeded_of_error fun _ _ => ⟨_, rfl⟩) (unseeded_of_error fun _ _ => ⟨_, rfl⟩)

/-- Listeners that give the values of some entries are as good as literals: the environment or the
error is that of the manifest in which each of these entries is the literal of its value, without
listeners.  What the manifest declares for these entries does not matter.  Every other entry has the
value that its own rule gives, and what fails is the rule of one of them.  The keys of a section are
distinct, as those of every manifest that is read are (`Manifest.DistinctKeys.of_ofJson`): a second
entry of one key would take the value of the first one for a seed, in the literals as well. -/
theorem resolve_seeded (hbus : bus.Gives seeds) (hkeys : manifest.DistinctKeys)
    (parameters : ParameterEnv) (j : Journal σ) :
    (∀ k : Journal τ, ((resolve manifest parameters bus).run.run j).1 =
      ((resolve (manifest.seeded seeds) parameters []).run.run k).1) ∧
    (∀ other, seeds.SameRest manifest other → ((resolve other parameters bus).run.run j).1 =
      ((resolve manifest parameters bus).run.run j).1) ∧
    (∀ environment j', (resolve manifest parameters bus).run.run j = (.ok environment, j') →
      environment.KeepsRest manifest seeds parameters) ∧
    ∀ e j', (resolve manifest parameters bus).run.run j = (.error e, j') →
      FailsInRest manifest seeds parameters e := by
  have hyields : Talk.Yields (resolve manifest parameters bus) _ := resolve_yields hbus hkeys
  refine ⟨fun k => ?_, fun other hother => ?_, ?_, ?_⟩
  · rw [hyields j, resolve_nil_yields (hkeys.seeded seeds) k]
  · rw [hyields j, resolve_yields hbus (hother.distinctKeys hkeys) j, sections_seeded_congr hother]
  · exact hyields.gives (fun _ => keepsRest_of_sections hkeys) j
  · exact hyields.throws (fun _ => failsInRest_of_sections) j

/-- A title that names a parameter without a value, and sections of each kind beside it. -/
def titleDocument : Json :=
  .object [("parameters", .array [.object [("id", .string "$name"), ("resolver", .object
      [("operation", .string "prompt"), ("type", .string "text"), ("label", .string "Name")])]]),
    ("variablesResolver", .object [("title", .object [("type", .string "format"),
        ("a", .string "$name"), ("b", .string "2"), ("result", .string "a, b")]),
      ("owner", .string "$owner")]),
    ("excludesResolver", .object [("docs", .bool true)]),
    ("filesBuildResolver", .object [("readme", .object [("filePath", .string "README"),
      ("content", .string "see docs")])])]

/-- A template, of a name that nobody asks for. -/
def titleNode : Expr := .format (.literal (.text "$name")) (.literal (.text "2")) "a, b"

/-- A manifest with it. -/
def titleManifest : Manifest where
  parameters := [⟨"$name", .ask ⟨.text, "Name", none⟩⟩]
  tokens := [("title", .compute titleNode), ("owner", .literal "$owner")]
  excludes := [("docs", .literal true)]
  builders := [("readme", ⟨"README", .literal "see docs"⟩)]
  document := titleDocument

/-- The title is the owner, the documents are kept, and the file is another one. -/
def titleSeeds : Seeds where
  token name := if name = "title" then some "$owner" else none
  exclude path := if path = "docs" then some false else none
  builder key := if key = "readme" then some ⟨"NOTES", "$owner"⟩ else none

/-- The only parameter that has a value. -/
def ownerParameters : ParameterEnv := Dict.ofList [("$owner", .text "Ada")]

/-- Seeds resolve a manifest that cannot be resolved without them. -/
theorem title_is_owner :
    ((resolve titleManifest ownerParameters ([] : Bus Unit)).run.run ⟨#[], ()⟩).1 =
        .error (.unresolvedReference "title" "$name") ∧
      ((resolve titleManifest ownerParameters ([titleSeeds.listener] : Bus Unit)).run.run
        ⟨#[], ()⟩).1 = .ok ⟨Dict.ofList [("title", "Ada"), ("owner", "Ada")],
          Dict.ofList [("docs", false)], Dict.ofList [("readme", ⟨"NOTES", "Ada"⟩)]⟩ := by
  have hdocument : titleDocument.Distinct := by
    simp [titleDocument]
  have hread : Manifest.ofJson titleDocument = .ok titleManifest := rfl
  have hkeys : titleManifest.DistinctKeys := .of_ofJson hdocument hread
  refine ⟨by decide +kernel, ?_⟩
  -- the literals need no listener
  rw [(resolve_seeded (.listener titleSeeds) hkeys ownerParameters _).1 (⟨#[], ()⟩ : Journal Unit)]
  decide +kernel

end Environment

end ConfigPack
