import ConfigPack.Proofs.Assembly.Last
import ConfigPack.Proofs.Plan

/-!
# Files that are built twice

Built files are kept by their keys and written in the order of the keys.  So of several entries with
one path the one with the greatest key is what the file holds in the end, in whatever order the
manifest declares them.
-/

namespace ConfigPack

variable {σ : Type} {manifest : Manifest} {parameters : ParameterEnv} {declared : List String}

namespace Environment

/-- What a declared file is built as: its path, and the text of its rule with the parameter that
this stands for. -/
structure Builds (declared : List String) (parameters : ParameterEnv) (b : String × BuilderEntry)
    (file : BuiltFile) : Prop where
  path : file.path = b.2.path
  content : ∃ text, textOf declared parameters b.1 b.2.content = .ok text ∧
    file.content = inject parameters text

/-- A file whose key is new is built as declared. -/
lemma resolveBuilder_builds {resolved : Dict BuiltFile} {b : String × BuilderEntry}
    (hnew : b.1 ∉ resolved.keys) :
    Talk.Gives (resolveBuilder declared parameters ([] : Bus σ) resolved b)
      fun built =>
        ∃ file, Builds declared parameters b file ∧ built = resolved.insert b.1 file := by
  refine (resolveBuilder_gives resolved b).mono ?_
  rintro _ ⟨built, hkept | ⟨_, hpath, htext⟩, rfl⟩
  · exact absurd (Dict.mem_keys.2 ⟨built, hkept⟩) hnew
  · exact ⟨{ built with content := inject parameters built.content },
      ⟨hpath, built.content, htext, rfl⟩, rfl⟩

/-- Files with different keys are all built as declared. -/
lemma foldlM_builds :
    ∀ {items : List (String × BuilderEntry)} {resolved : Dict BuiltFile},
      (items.map Prod.fst).Nodup → (∀ b ∈ items, b.1 ∉ resolved.keys) →
      Talk.Gives (items.foldlM (resolveBuilder declared parameters ([] : Bus σ)) resolved)
        fun built => (∀ e ∈ resolved.entries, e ∈ built.entries) ∧
          (∀ b ∈ items, ∃ file, Builds declared parameters b file ∧ (b.1, file) ∈ built.entries) ∧
          ∀ e ∈ built.entries, e ∈ resolved.entries ∨ ∃ b ∈ items, b.1 = e.1
  | [], resolved, _, _ => .pure ⟨fun _ he => he, by simp, fun _ he => .inl he⟩
  | b :: items, resolved, hnodup, hnew => by
    obtain ⟨hb, hrest⟩ := List.nodup_cons.1 hnodup
    rw [List.foldlM_cons]
    refine .bind (resolveBuilder_builds (hnew b List.mem_cons_self)) ?_
    rintro _ ⟨file, hfile, rfl⟩
    -- the entries behind have other keys, so theirs are still new
    have hlater : ∀ x ∈ items, x.1 ∉ (resolved.insert b.1 file).keys := by
      intro x hx hkey
      rcases Dict.mem_keys_insert.1 hkey with hsame | hkey
      · exact hb (hsame ▸ List.mem_map_of_mem hx)
      · exact hnew x (List.mem_cons_of_mem _ hx) hkey
    intro j built j' hrun
    obtain ⟨hkept, hbuilt, hall⟩ := foldlM_builds hrest hlater j built j' hrun
    have hfirst : (b.1, file) ∈ built.entries := hkept _ (Dict.mem_insert.2 (.inl rfl))
    refine ⟨fun e he => hkept e (Dict.mem_insert.2 (.inr ⟨he, ?_⟩)), fun x hx => ?_, fun e he => ?_⟩
    · intro hkey
      exact hnew b List.mem_cons_self (hkey ▸ Dict.mem_keys.2 ⟨e.2, he⟩)
    · rcases List.mem_cons.1 hx with rfl | hx
      · exact ⟨file, hfile, hfirst⟩
      · exact hbuilt x hx
    · rcases hall e he with he | ⟨x, hx, hkey⟩
      · rcases Dict.mem_insert.1 he with rfl | ⟨he, _⟩
        · exact .inr ⟨b, List.mem_cons_self, rfl⟩
        · exact .inl he
      · exact .inr ⟨x, List.mem_cons_of_mem _ hx, hkey⟩

/-- The built files of an environment are the declared ones, under their keys. -/
def BuildsAll (declared : List String) (parameters : ParameterEnv)
    (builders : List (String × BuilderEntry)) (built : Dict BuiltFile) : Prop :=
  (∀ b ∈ builders, ∃ file, Builds declared parameters b file ∧ (b.1, file) ∈ built.entries) ∧
    ∀ e ∈ built.entries, ∃ b ∈ builders, b.1 = e.1 ∧ Builds declared parameters b e.2

/-- Without listeners every declared file is built under its key, and no other file. -/
lemma resolve_builds (hkeys : (manifest.builders.map Prod.fst).Nodup) :
    Talk.Gives (resolve manifest parameters ([] : Bus σ))
      fun environment =>
        BuildsAll manifest.ids parameters manifest.builders environment.builders := by
  refine .next fun tokens => .next fun excludes => ?_
  refine .bind (foldlM_builds hkeys (by simp [Dict.keys, Dict.empty])) ?_
  rintro built ⟨_, hbuilt, hall⟩
  refine .next fun _ => .pure ⟨hbuilt, fun e he => ?_⟩
  rcases hall e he with he | ⟨b, hb, hkey⟩
  · cases he
  · obtain ⟨file, hfile, hmem⟩ := hbuilt b hb
    have hsame : file = e.2 := Dict.eq_of_mem (hkey ▸ hmem) he
    exact ⟨b, hb, hkey, hsame ▸ hfile⟩

end Environment

namespace Install

/-- What is planned is built from the builders of the manifest, in turn. -/
lemma plan_builds {prompter : Prompter σ} {w w' : World σ}
    {planned : ParameterEnv × Environment}
    (hkeys : (manifest.builders.map Prod.fst).Nodup)
    (h : (plan manifest prompter []).exec w = (.ok planned, w')) :
    Environment.BuildsAll manifest.ids planned.1 manifest.builders planned.2.builders := by
  obtain ⟨_, _, _, _, _, henvironment⟩ := plan_ok h
  exact Environment.resolve_builds hkeys _ _ _ henvironment

/-- The content that a declared file is rendered to in an installation. -/
def rendered (source : Fuel.Source) (manifest : Manifest) (installed : Installed)
    (b : String × BuilderEntry) : Except Failure ByteArray := do
  let text ← (Environment.textOf manifest.ids installed.parameters b.1 b.2.content).mapError .config
  let text ← (Fuel.refuel source (Environment.inject installed.parameters text)).mapError .config
  (Assembly.renderText installed.environment.tokens b.2.path text).mapError .assembly

/-- What a builder is rendered to, from its text and its content. -/
lemma rendered_eq {source : Fuel.Source} {b : String × BuilderEntry} {text content : String}
    (installed : Installed)
    (htext : Environment.textOf manifest.ids installed.parameters b.1 b.2.content = .ok text)
    (hcontent : Fuel.refuel source (Environment.inject installed.parameters text) = .ok content) :
    rendered source manifest installed b =
      (Assembly.renderText installed.environment.tokens b.2.path content).mapError .assembly := by
  rw [rendered, htext]
  change (Fuel.refuel _ _).mapError _ >>= _ = _
  rw [hcontent]
  rfl

/-- The built files of an installation are the declared ones, each with the fuel that its content
stands for. -/
lemma mem_builders {source : Fuel.Source} {environment fuelled : Environment}
    (hbuilds : Environment.BuildsAll declared parameters manifest.builders environment.builders)
    (hfuelled : fueled source environment = .ok fuelled) :
    (∀ b ∈ manifest.builders, ∃ file, (b.1, file) ∈ fuelled.builders.entries ∧
      file.path = b.2.path ∧ ∃ text,
        Environment.textOf declared parameters b.1 b.2.content = .ok text ∧
        Fuel.refuel source (Environment.inject parameters text) = .ok file.content) ∧
    ∀ e ∈ fuelled.builders.entries, ∃ b ∈ manifest.builders, b.1 = e.1 ∧ b.2.path = e.2.path := by
  obtain ⟨tokens, _, hfuelled⟩ := Result.bind_eq_ok.1 hfuelled
  obtain ⟨builders, hbuilders, hfuelled⟩ := Result.bind_eq_ok.1 hfuelled
  cases hfuelled
  constructor
  · intro b hb
    obtain ⟨file, ⟨hpath, text, htext, hcontent⟩, hmem⟩ := hbuilds.1 b hb
    obtain ⟨changed, hchanged, hmem'⟩ := Dict.exists_of_mapM hbuilders hmem
    obtain ⟨content, hsupplied, hsame⟩ := Result.bind_eq_ok.1 hchanged
    injection hsame with hsame
    exact ⟨changed, hmem', hsame ▸ hpath, text, htext, hsame ▸ hcontent ▸ hsupplied⟩
  · intro e he
    obtain ⟨file, hfile, hcontent⟩ := (Dict.mem_mapM hbuilders).1 he
    obtain ⟨content, _, hsame⟩ := Result.bind_eq_ok.1 hcontent
    obtain ⟨b, hb, hkey, hbuilt⟩ := hbuilds.2 _ hfile
    injection hsame with hsame
    exact ⟨b, hb, hkey, hsame ▸ hbuilt.path.symm⟩

/-- When an installation with no listeners that merges nothing has succeeded, a file that is built
at least once holds what its entry with the greatest key is rendered to, in whatever order the
entries are declared. -/
theorem greatest_key_is_held {fuels : Option String} {settings : AssemblySettings}
    {prompter : Prompter σ} {installed : Installed} {w w' : World σ} {b : String × BuilderEntry}
    (hkeys : (manifest.builders.map Prod.fst).Nodup) (hmode : settings.write.mode = .off)
    (hreal : settings.write.dryRun = false)
    (h : (run manifest fuels settings prompter []).exec w = (.ok installed, w'))
    (hb : b ∈ manifest.builders)
    (hout : installed.environment.isExcluded b.2.path = false)
    (hgreatest : ∀ b' ∈ manifest.builders, installed.environment.isExcluded b'.2.path = false →
      Assembly.SameEntry w.tree settings.output b'.2.path b.2.path → b'.1 ≤ b.1) :
    ∃ place content, w.tree.EntryOf (Path.join settings.output b.2.path) place ∧
      rendered (fuelSource w.tree fuels) manifest installed b = .ok content ∧
      w'.tree.content? place = some content := by
  obtain ⟨environment, w₁, w₂, w₃, hplan, hfuelled, hrun, h₂, h₃⟩ := runFrom_ok h
  obtain ⟨hdeclared, honly⟩ := mem_builders (plan_builds hkeys hplan) hfuelled
  obtain ⟨file, hfile, hpath, text, htext, hcontent⟩ := hdeclared b hb
  obtain ⟨less, greater, hentries⟩ := List.append_of_mem hfile
  -- entries are in the order of their keys, so behind this one there are only greater keys
  have hgreater : ∀ e ∈ greater, b.1 < e.1 := by
    have hsorted := installed.environment.builders.sorted
    rw [hentries] at hsorted
    exact fun e he => List.rel_of_pairwise_cons (List.pairwise_append.1 hsorted).2.1 he
  obtain ⟨files, hjobs⟩ := Assembly.candidates_of_run hrun
  rw [Assembly.builderJobs, hentries, List.map_append, ← List.append_assoc, List.map_cons] at hjobs
  have hjobPath : (Assembly.builderJob b.1 file).candidate.path = b.2.path := hpath
  have hlater : ∀ j ∈ greater.map fun e => Assembly.builderJob e.1 e.2,
      installed.environment.isExcluded j.candidate.path = false →
      ¬ Assembly.SameEntry w₂.tree settings.output j.candidate.path
        (Assembly.builderJob b.1 file).candidate.path := by
    intro j hj hjout hsame
    obtain ⟨e, he, rfl⟩ := List.mem_map.1 hj
    obtain ⟨b', hb', hkey, hpath'⟩ := honly e (hentries ▸ by simp [he])
    change installed.environment.isExcluded e.2.path = false at hjout
    change Assembly.SameEntry w₂.tree settings.output e.2.path file.path at hsame
    rw [← hpath'] at hjout hsame
    rw [h₂, hpath] at hsame
    exact hgreatest b' hb' hjout hsame (hkey ▸ hgreater e he)
  obtain ⟨place, data, before, content, hentry, hdata, hcombined, hheld⟩ :=
    Assembly.run_last hreal hrun hjobs (hjobPath ▸ hout) hlater
  rw [hjobPath, h₂] at hentry
  rw [h₃] at hheld
  have hsame : content = data := by
    rw [hmode] at hcombined
    exact (Option.some.inj hcombined).symm
  refine ⟨place, data, hentry, ?_, hsame ▸ hheld⟩
  rw [rendered_eq installed htext hcontent]
  exact Result.mapError_eq_ok.2 (hjobPath ▸ hdata)

/-- A manifest that declares one file twice, under the key `z` and then under the key `a`. -/
def twiceManifest : Manifest where
  document := .object []
  parameters := []
  tokens := []
  excludes := []
  builders := [("z", ⟨"a.txt", .literal "first"⟩), ("a", ⟨"a.txt", .literal "second"⟩)]

/-- For instance, of two builders with one path the one with the greater key is held, though it is
declared first. -/
theorem first_declaration_is_held :
    ∃ installed w',
      (run twiceManifest none ⟨none, "out", ⟨.off, false⟩, true⟩ Prompter.defaults []).exec
        (⟨⟨#[], ()⟩, ⟨[], []⟩, .calm⟩ : World Unit) = (.ok installed, w') ∧
      (∃ place, FileTree.EntryOf ⟨[], []⟩ (Path.join "out" "a.txt") place ∧
        w'.tree.content? place = some "first".toUTF8) ∧
      rendered noFuels twiceManifest installed ("a", ⟨"a.txt", .literal "second"⟩) =
        .ok "second".toUTF8 := by
  have hrun : ((run twiceManifest none ⟨none, "out", ⟨.off, false⟩, true⟩ Prompter.defaults []).exec
      (⟨⟨#[], ()⟩, ⟨[], []⟩, .calm⟩ : World Unit)).1.toOption.map (fun installed =>
        (installed.parameters, installed.environment.tokens, installed.environment.excludes)) =
      some (.empty, .empty, .empty) := by
    decide +kernel
  rcases he : (run twiceManifest none ⟨none, "out", ⟨.off, false⟩, true⟩ Prompter.defaults []).exec
    (⟨⟨#[], ()⟩, ⟨[], []⟩, .calm⟩ : World Unit) with ⟨e | ⟨_, ⟨_, _, builders⟩, report⟩, w'⟩
  · rw [he] at hrun
    cases hrun
  rw [he] at hrun
  cases hrun
  have hplain : ∀ text ∈ ["first", "second"],
      (Fuel.refuel noFuels (Environment.inject .empty text)).toOption = some text ∧
        (Assembly.renderText .empty "a.txt" text).toOption = some text.toUTF8 := by
    decide +kernel
  have hrendered : ∀ text ∈ ["first", "second"], ∀ key,
      rendered noFuels twiceManifest ⟨.empty, ⟨.empty, .empty, builders⟩, report⟩
        (key, ⟨"a.txt", .literal text⟩) = .ok text.toUTF8 := by
    intro text htext key
    obtain ⟨hfuel, hbytes⟩ := hplain text htext
    have hliteral : Environment.textOf twiceManifest.ids .empty key (.literal text) =
      .ok text := rfl
    refine (rendered_eq ⟨.empty, ⟨.empty, .empty, builders⟩, report⟩ hliteral
      (Result.toOption_eq_some.1 hfuel)).trans ?_
    exact Result.mapError_eq_ok.2 (Result.toOption_eq_some.1 hbytes)
  have hgreatest : ∀ b ∈ twiceManifest.builders, b.1 ≤ "z" := by decide
  obtain ⟨place, content, hentry, hcontent, hheld⟩ :=
    greatest_key_is_held (b := ("z", ⟨"a.txt", .literal "first"⟩)) (by decide) rfl rfl he
      List.mem_cons_self rfl fun b hb _ _ => hgreatest b hb
  cases hcontent.symm.trans (hrendered "first" (by simp) "z")
  exact ⟨_, w', rfl, ⟨place, hentry, hheld⟩, hrendered "second" (by simp) "a"⟩

end Install

end ConfigPack
