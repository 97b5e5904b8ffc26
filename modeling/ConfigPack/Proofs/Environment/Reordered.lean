import ConfigPack.Proofs.Environment.Sections

/-!
# Sections in another order

Without listeners no entry of a section reads what another one has put there, so a section is filled
exactly when each of its entries has a value, and it is known from its values (`sectionOf_eq_ok`).
Neither depends on the order of the entries: manifests that differ in the order of their sections
have the same environment, or both have none (`resolve_reordered`).
-/

namespace ConfigPack

variable {σ τ : Type}

namespace Parameters

variable {declared declared' : List String} {env : ParameterEnv} {owner : String} {node : Expr}

/-- Of the declared ids only counts which they are. -/
lemma evaluate_congr (h : ∀ id, id ∈ declared ↔ id ∈ declared') :
    evaluate declared env owner node = evaluate declared' env owner node := by
  have hsame : ∀ text, declared.contains text = declared'.contains text := by
    intro text
    rw [Bool.eq_iff_iff, List.contains_iff_mem, List.contains_iff_mem, h]
  simp only [evaluate, checkReferences, hsame]

end Parameters

/-- Manifests with the same declared parameters and the same entries of each section, both in any
order. -/
structure Manifest.Reordered (manifest other : Manifest) : Prop where
  parameters : manifest.parameters.Perm other.parameters
  tokens : manifest.tokens.Perm other.tokens
  excludes : manifest.excludes.Perm other.excludes
  builders : manifest.builders.Perm other.builders

variable {manifest other : Manifest}

/-- The relation goes both ways. -/
lemma Manifest.Reordered.symm (h : manifest.Reordered other) : other.Reordered manifest :=
  ⟨h.parameters.symm, h.tokens.symm, h.excludes.symm, h.builders.symm⟩

/-- Reordered manifests declare the same parameters. -/
lemma Manifest.Reordered.mem_ids (h : manifest.Reordered other) (id : String) :
    id ∈ manifest.ids ↔ id ∈ other.ids :=
  (h.parameters.map Parameter.id).mem_iff

/-- They have different keys, the one as the other. -/
lemma Manifest.Reordered.distinctKeys (h : manifest.Reordered other)
    (hkeys : manifest.DistinctKeys) : other.DistinctKeys where
  tokens := (h.tokens.map Prod.fst).nodup_iff.1 hkeys.tokens
  excludes := (h.excludes.map Prod.fst).nodup_iff.1 hkeys.excludes
  builders := (h.builders.map Prod.fst).nodup_iff.1 hkeys.builders

namespace Environment

variable {declared declared' : List String} {parameters : ParameterEnv}

/-! ## One section -/

section

variable {α β : Type} {value value' : String × α → Except ConfigError β}
  {entries entries' : List (String × α)} {resolved : Dict β}

/-- Each entry has a value, which stands under its key, and there are no other keys. -/
structure Fills (value : String × α → Except ConfigError β) (entries : List (String × α))
    (resolved : Dict β) : Prop where
  value : ∀ entry ∈ entries, ∃ v, value entry = .ok v ∧ resolved.find? entry.1 = some v
  keys : ∀ key, key ∈ resolved.keys ↔ key ∈ entries.map Prod.fst

/-- Entries fill one dictionary at most. -/
lemma Fills.unique {resolved' : Dict β} (h : Fills value entries resolved)
    (h' : Fills value entries resolved') : resolved = resolved' := by
  apply Dict.ext_find?
  intro key
  by_cases hkey : key ∈ entries.map Prod.fst
  · obtain ⟨entry, hentry, rfl⟩ := List.mem_map.1 hkey
    obtain ⟨v, hv, hfound⟩ := h.value entry hentry
    obtain ⟨v', hv', hfound'⟩ := h'.value entry hentry
    rw [hv] at hv'
    cases hv'
    rw [hfound, hfound']
  · rw [Dict.find?_eq_none_iff.2 (mt (h.keys key).1 hkey),
      Dict.find?_eq_none_iff.2 (mt (h'.keys key).1 hkey)]

/-- What entries fill depends neither on their order nor on how their values are found. -/
lemma Fills.perm (hperm : entries.Perm entries') (hvalue : ∀ entry, value entry = value' entry)
    (h : Fills value entries resolved) : Fills value' entries' resolved where
  value entry hentry := hvalue entry ▸ h.value entry (hperm.mem_iff.2 hentry)
  keys key := (h.keys key).trans (hperm.map Prod.fst).mem_iff

/-- A section is a dictionary when its entries fill it. -/
lemma sectionOf_eq_ok (hnodup : (entries.map Prod.fst).Nodup) :
    sectionOf value entries Dict.empty = .ok resolved ↔ Fills value entries resolved := by
  constructor
  · intro h
    obtain ⟨hvalues, hkeys⟩ := sectionOf_ok hnodup h
    exact ⟨hvalues, hkeys⟩
  · intro h
    cases hrun : sectionOf value entries Dict.empty with
    | error e =>
      obtain ⟨entry, hentry, hfails⟩ := sectionOf_error hrun
      obtain ⟨v, hv, _⟩ := h.value entry hentry
      rw [hv] at hfails
      cases hfails
    | ok filled =>
      obtain ⟨hvalues, hkeys⟩ := sectionOf_ok hnodup hrun
      rw [h.unique ⟨hvalues, hkeys⟩]

/-- A section is the same dictionary in whatever order its entries come. -/
lemma sectionOf_perm (hnodup : (entries.map Prod.fst).Nodup) (hperm : entries.Perm entries')
    (hvalue : ∀ entry, value entry = value' entry)
    (h : sectionOf value entries Dict.empty = .ok resolved) :
    sectionOf value' entries' Dict.empty = .ok resolved := by
  have hnodup' : (entries'.map Prod.fst).Nodup := (hperm.map Prod.fst).nodup_iff.1 hnodup
  exact (sectionOf_eq_ok hnodup').2 (((sectionOf_eq_ok hnodup).1 h).perm hperm hvalue)

end

/-! ## All sections -/

section

variable (h : ∀ id, id ∈ declared ↔ id ∈ declared')

include h

/-- What is declared matters as a set only, for the text of a rule. -/
lemma textOf_congr (owner : String) (rule : Rule String) :
    textOf declared parameters owner rule = textOf declared' parameters owner rule := by
  cases rule with
  | literal text => rfl
  | compute node => rw [textOf, textOf, Parameters.evaluate_congr h]

/-- So it does for a flag. -/
lemma flagOf_congr (owner : String) (rule : Rule Bool) :
    flagOf declared parameters owner rule = flagOf declared' parameters owner rule := by
  cases rule with
  | literal flag => rfl
  | compute node => rw [flagOf, flagOf, Parameters.evaluate_congr h]

/-- So it does for a token. -/
lemma variableValue_congr (entry : String × Rule String) :
    variableValue declared parameters entry = variableValue declared' parameters entry := by
  rw [variableValue, variableValue, textOf_congr h]

/-- So it does for an exclusion. -/
lemma excludeValue_congr (entry : String × Rule Bool) :
    excludeValue declared parameters entry = excludeValue declared' parameters entry :=
  flagOf_congr h _ _

/-- So it does for a file that is built. -/
lemma builderValue_congr (entry : String × BuilderEntry) :
    builderValue declared parameters entry = builderValue declared' parameters entry := by
  rw [builderValue, builderValue, textOf_congr h]

end

/-- The sections of reordered manifests give one environment. -/
lemma sections_reordered (h : manifest.Reordered other) (hkeys : manifest.DistinctKeys)
    {environment : Environment} (hrun : sections manifest parameters = .ok environment) :
    sections other parameters = .ok environment := by
  obtain ⟨htokens, hexcludes, hbuilders⟩ := sections_eq_ok.1 hrun
  refine sections_eq_ok.2 ⟨?_, ?_, ?_⟩
  · exact sectionOf_perm hkeys.tokens h.tokens (variableValue_congr h.mem_ids) htokens
  · exact sectionOf_perm hkeys.excludes h.excludes (excludeValue_congr h.mem_ids) hexcludes
  · exact sectionOf_perm hkeys.builders h.builders (builderValue_congr h.mem_ids) hbuilders

/-- With no listeners and distinct keys in each section, two manifests that differ in the order of
their entries both fail over a parameter environment, or both give one environment.  Where several
entries fail, the order decides which of them is reported. -/
theorem resolve_reordered (h : manifest.Reordered other) (hkeys : manifest.DistinctKeys)
    (parameters : ParameterEnv) (j : Journal σ) (k : Journal τ) :
    (∃ e e', ((resolve manifest parameters []).run.run j).1 = .error e ∧
        ((resolve other parameters []).run.run k).1 = .error e') ∨
      ∃ environment, ((resolve manifest parameters []).run.run j).1 = .ok environment ∧
        ((resolve other parameters []).run.run k).1 = .ok environment := by
  rw [resolve_nil_yields hkeys j, resolve_nil_yields (h.distinctKeys hkeys) k]
  cases hfirst : sections manifest parameters with
  | ok environment => exact .inr ⟨environment, rfl, sections_reordered h hkeys hfirst⟩
  | error e =>
    cases hsecond : sections other parameters with
    | error e' => exact .inl ⟨e, e', rfl, rfl⟩
    | ok environment =>
      rw [sections_reordered h.symm (h.distinctKeys hkeys) hsecond] at hfirst
      cases hfirst

/-- Entries that name a parameter and the keys of one another. -/
def stampManifest : Manifest where
  parameters := [⟨"$name", .ask ⟨.text, "Name", none⟩⟩]
  tokens := [("owner", .literal "$name"), ("stamp", .compute (.either (.literal (.text "owner"))
    (.literal (.text "none"))))]
  excludes := [("docs", .literal true), ("drafts", .compute (.condition .differs
    (.literal (.text "$name")) (.literal (.text "Ada")) none))]
  builders := [("b", ⟨"OWNER", .literal "$name"⟩), ("a", ⟨"OWNER", .literal "owner"⟩)]
  document := .object []

/-- The same entries in the other order. -/
def turnedManifest : Manifest where
  parameters := stampManifest.parameters
  tokens := stampManifest.tokens.reverse
  excludes := stampManifest.excludes.reverse
  builders := stampManifest.builders.reverse
  document := .object []

/-- The entries in another order are resolved to the same, also where one text is the key of another
entry. -/
theorem stamp_is_turned :
    ∃ environment : Environment,
      ((resolve stampManifest (Dict.ofList [("$name", .text "Ada")]) ([] : Bus Unit)).run.run
        ⟨#[], ()⟩).1 = .ok environment ∧
      ((resolve turnedManifest (Dict.ofList [("$name", .text "Ada")]) ([] : Bus Unit)).run.run
        ⟨#[], ()⟩).1 = .ok environment ∧
      environment = ⟨Dict.ofList [("owner", "Ada"), ("stamp", "owner")],
        Dict.ofList [("docs", true), ("drafts", false)],
        Dict.ofList [("a", ⟨"OWNER", "owner"⟩), ("b", ⟨"OWNER", "Ada"⟩)]⟩ := by
  have hreordered : stampManifest.Reordered turnedManifest :=
    ⟨.refl _, (List.reverse_perm _).symm, (List.reverse_perm _).symm, (List.reverse_perm _).symm⟩
  have hkeys : stampManifest.DistinctKeys := ⟨by decide, by decide, by decide⟩
  have hgiven : ((resolve stampManifest (Dict.ofList [("$name", .text "Ada")])
      ([] : Bus Unit)).run.run ⟨#[], ()⟩).1 =
      .ok ⟨Dict.ofList [("owner", "Ada"), ("stamp", "owner")],
        Dict.ofList [("docs", true), ("drafts", false)],
        Dict.ofList [("a", ⟨"OWNER", "owner"⟩), ("b", ⟨"OWNER", "Ada"⟩)]⟩ := by
    decide +kernel
  obtain ⟨e, _, he, _⟩ | ⟨environment, hrun, hturned⟩ :=
    resolve_reordered hreordered hkeys (Dict.ofList [("$name", .text "Ada")])
      (⟨#[], ()⟩ : Journal Unit) (⟨#[], ()⟩ : Journal Unit)
  · rw [he] at hgiven
    cases hgiven
  · refine ⟨environment, hrun, hturned, ?_⟩
    rw [hrun] at hgiven
    exact Except.ok.inj hgiven

end Environment

end ConfigPack
