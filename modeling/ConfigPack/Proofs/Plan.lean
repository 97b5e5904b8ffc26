import ConfigPack.Proofs.Alike
import ConfigPack.Proofs.Dict
import ConfigPack.Proofs.Fuel
import ConfigPack.Proofs.Listeners

/-!
# Plans of installations

The plan of an installation are its parameters and its environment before the fuels are supplied.
It does not look at the files and does not depend on the document of the manifest; the files that it
builds have the paths that the manifest gives them.
-/

namespace ConfigPack

variable {σ : Type}

/-! ## Talks that are blind -/

namespace Parameters

/-- The value of a parameter does not depend on the log. -/
lemma valueOf_blind (declared : List String) (prompter : Prompter σ) (env : ParameterEnv)
    (parameter : Parameter) : Talk.Blind (valueOf declared prompter env parameter) := by
  rw [valueOf]
  split
  · exact .withHost _ _
  · exact .bind (.liftM _) fun value => .pure _

/-- Neither do the parameters up to it. -/
lemma resolveNext_blind (declared : List String) (prompter : Prompter σ) (bus : Bus σ)
    (env : ParameterEnv) (parameter : Parameter) :
    Talk.Blind (resolveNext declared prompter bus env parameter) := by
  refine .bind (.withHost _ _) fun env => ?_
  split
  · exact .bind (.log _ _) fun _ => .pure _
  · exact .bind (valueOf_blind _ _ _ _) fun value => .bind (.log _ _) fun _ => .pure _

/-- Neither do all parameters. -/
lemma resolve_blind (parameters : List Parameter) (prompter : Prompter σ) (bus : Bus σ) :
    Talk.Blind (resolve parameters prompter bus) :=
  .foldlM (fun _ _ => resolveNext_blind _ _ _ _ _) _ _

end Parameters

namespace Environment

variable (declared : List String) (parameters : ParameterEnv) (bus : Bus σ)

/-- Neither does a variable. -/
lemma resolveVariable_blind (resolved : Dict String) (entry : String × Rule String) :
    Talk.Blind (resolveVariable declared parameters bus resolved entry) := by
  refine .bind (.withHost _ _) fun resolved => ?_
  split
  · exact .bind (.pure _) fun text => .pure _
  · exact .bind (.liftM _) fun text => .pure _

/-- Neither does an exclude. -/
lemma resolveExclude_blind (resolved : Dict Bool) (entry : String × Rule Bool) :
    Talk.Blind (resolveExclude declared parameters bus resolved entry) := by
  refine .bind (.withHost _ _) fun resolved => ?_
  split
  · exact .pure _
  · exact .bind (.liftM _) fun flag => .pure _

/-- Neither does a builder. -/
lemma resolveBuilder_blind (resolved : Dict BuiltFile) (entry : String × BuilderEntry) :
    Talk.Blind (resolveBuilder declared parameters bus resolved entry) := by
  refine .bind (.withHost _ _) fun resolved => ?_
  split
  · exact .bind (.pure _) fun built => .pure _
  · exact .bind (.liftM _) fun text => .pure _

/-- Neither does an environment. -/
lemma resolve_blind (manifest : Manifest) : Talk.Blind (resolve manifest parameters bus) := by
  refine .bind (.foldlM (fun _ _ => resolveVariable_blind _ _ _ _ _) _ _) fun tokens => ?_
  refine .bind (.foldlM (fun _ _ => resolveExclude_blind _ _ _ _ _) _ _) fun excludes => ?_
  refine .bind (.foldlM (fun _ _ => resolveBuilder_blind _ _ _ _ _) _ _) fun builders => ?_
  exact .bind (.log _ _) fun _ => .pure _

end Environment

/-! ## Paths of built files -/

namespace Talk

variable {ε δ α β : Type}

/-- What a talk gives when it succeeds. -/
def Gives (action : Talk σ ε α) (P : α → Prop) : Prop :=
  ∀ j a j', action.run.run j = (.ok a, j') → P a

/-- What is returned at once. -/
lemma Gives.pure {P : α → Prop} {a : α} (h : P a) : Gives (pure a : Talk σ ε α) P := by
  intro j a j' hrun
  cases hrun
  exact h

/-- A sequence gives what its second step gives after any result that the first one may have. -/
lemma Gives.bind {action : Talk σ ε α} {next : α → Talk σ ε β} {P : α → Prop} {Q : β → Prop}
    (h : Gives action P) (h' : ∀ a, P a → Gives (next a) Q) : Gives (action >>= next) Q := by
  intro j b j' hrun
  rw [Work.run_bind] at hrun
  rcases hx : action.run.run j with ⟨e | a, j₁⟩
  all_goals rw [hx] at hrun
  · cases hrun
  · exact h' a (h j a j₁ hx) j₁ b j' hrun

/-- What gives something gives whatever follows from it. -/
lemma Gives.mono {action : Talk σ ε α} {P Q : α → Prop} (h : Gives action P)
    (hPQ : ∀ a, P a → Q a) : Gives action Q := fun j a j' hrun => hPQ a (h j a j' hrun)

/-- A sequence gives what its second step gives after any result. -/
lemma Gives.next {action : Talk σ ε α} {next : α → Talk σ ε β} {Q : β → Prop}
    (h : ∀ a, Gives (next a) Q) : Gives (action >>= next) Q :=
  Gives.bind (P := fun _ => True) (fun _ _ _ _ => trivial) fun a _ => h a

/-- A fold gives what it starts with, if each step keeps it. -/
lemma Gives.foldlM {f : β → α → Talk σ ε β} {P : β → Prop} :
    ∀ {items : List α} {b : β}, (∀ b, P b → ∀ a ∈ items, Gives (f b a) P) → P b →
      Gives (items.foldlM f b) P
  | [], b, _, hb => .pure hb
  | a :: items, b, h, hb => by
    rw [List.foldlM_cons]
    refine .bind (h b hb a List.mem_cons_self) fun b' hb' => ?_
    exact foldlM (fun b hb x hx => h b hb x (List.mem_cons_of_mem _ hx)) hb'

/-- A result that is known. -/
lemma Gives.liftM (result : Except ε α) :
    Gives (liftM result : Talk σ ε α) fun a => result = .ok a := by
  intro j a j' hrun
  exact (Prod.mk.inj hrun).1

/-- What the host of a talk gives. -/
lemma Gives.withHost {wrap : δ → ε} {action : ExceptT δ (StateM σ) α} {P : α → Prop}
    (h : ∀ s a s', action.run.run s = (.ok a, s') → P a) :
    Gives (Talk.withHost wrap action : Talk σ ε α) P := by
  intro j a j' hrun
  obtain ⟨hresult, _⟩ := Prod.mk.inj hrun
  exact h j.host a _ (Prod.ext (Result.mapError_eq_ok.1 hresult) rfl)

end Talk

/-- Built files have paths that a manifest gives. -/
def Manifest.Names (manifest : Manifest) (builders : Dict BuiltFile) : Prop :=
  ∀ e ∈ builders.entries, ∃ b ∈ manifest.builders, b.2.path = e.2.path

namespace Environment

variable {declared : List String} {parameters : ParameterEnv} {manifest : Manifest}

/-- Without listeners a file is built from what its key stands for already, or as it is declared
when the key is new. -/
lemma resolveBuilder_gives (resolved : Dict BuiltFile) (entry : String × BuilderEntry) :
    Talk.Gives (resolveBuilder declared parameters ([] : Bus σ) resolved entry) fun resolved' =>
      ∃ built : BuiltFile,
        ((entry.1, built) ∈ resolved.entries ∨ entry.1 ∉ resolved.keys ∧
          built.path = entry.2.path ∧
          textOf declared parameters entry.1 entry.2.content = .ok built.content) ∧
        resolved' = resolved.insert entry.1
          { built with content := inject parameters built.content } := by
  have hheard : (Bus.emitBuilder [] entry.1 entry.2 resolved : Hearing σ (Dict BuiltFile)) =
    pure resolved := rfl
  rw [resolveBuilder, hheard, Talk.withHost_pure, pure_bind]
  split
  next seeded hseeded =>
    exact .pure ⟨seeded, .inl (Dict.mem_entries_of_find? hseeded), rfl⟩
  next hnone =>
    exact .bind (.liftM _) fun text htext =>
      .pure ⟨⟨entry.2.path, text⟩, .inr ⟨Dict.find?_eq_none_iff.1 hnone, rfl, htext⟩, rfl⟩

/-- A builder adds a file with the path that the manifest gives. -/
lemma resolveBuilder_names {resolved : Dict BuiltFile} {entry : String × BuilderEntry}
    (hresolved : manifest.Names resolved) (hentry : entry ∈ manifest.builders) :
    Talk.Gives (resolveBuilder declared parameters ([] : Bus σ) resolved entry) manifest.Names := by
  refine (resolveBuilder_gives resolved entry).mono ?_
  rintro _ ⟨built, hbuilt, rfl⟩ e he
  rcases Dict.mem_insert.1 he with rfl | ⟨he, _⟩
  · rcases hbuilt with hkept | ⟨_, hpath, _⟩
    · exact hresolved (entry.1, built) hkept
    · exact ⟨entry, hentry, hpath.symm⟩
  · exact hresolved e he

/-- Without listeners every built file has a path of the manifest. -/
lemma resolve_names (manifest : Manifest) (parameters : ParameterEnv) :
    Talk.Gives (resolve manifest parameters ([] : Bus σ))
      fun environment => manifest.Names environment.builders := by
  refine .next fun tokens => .next fun excludes => ?_
  refine .bind (P := manifest.Names) (.foldlM ?_ ?_) fun builders hbuilders => ?_
  · exact fun resolved hresolved entry hentry => resolveBuilder_names hresolved hentry
  · intro e he
    cases he
  · exact .next fun _ => .pure hbuilders

end Environment

/-! ## Plans -/

namespace Install

/-- What is decided before the fuels are supplied: the parameters and the environment. -/
def plan (manifest : Manifest) (prompter : Prompter σ) (bus : Bus σ) :
    Work σ Failure (ParameterEnv × Environment) := do
  Work.log .stage "Resolving parameters"
  let parameters ← Work.talk .config (Parameters.resolve manifest.parameters prompter bus)
  Work.log .info s!"{parameters.size} parameters resolved"
  Work.log .stage "Resolving config"
  let environment ← Work.talk .config (Environment.resolve manifest parameters bus)
  return (parameters, environment)

/-- What is done when the fuels are supplied. -/
def assemble (settings : AssemblySettings) (bus : Bus σ) (parameters : ParameterEnv)
    (environment : Environment) : Work σ Failure Installed := do
  Work.log .stage "Assembling"
  let report ← Work.within .assembly (Assembly.run environment settings bus)
  Work.log .info s!"{report.files.length} files processed into {settings.output}"
  return ⟨parameters, environment, report⟩

/-- To install is to plan, to supply the fuels and to assemble. -/
lemma runFrom_eq (manifest : Manifest) (source : FileTree → Fuel.Source)
    (settings : AssemblySettings) (prompter : Prompter σ) (bus : Bus σ) :
    runFrom manifest source settings prompter bus = (do
      let planned ← plan manifest prompter bus
      let environment ← Work.look .config fun tree => fueled (source tree) planned.2
      assemble settings bus planned.1 environment) := by
  simp only [runFrom, resolve, plan, assemble, bind_assoc, pure_bind]

/-- A plan does not depend on the files or on the document. -/
lemma plan_alike {draws : Prop} {R : FileTree → FileTree → Prop} {manifest : Manifest}
    {document : Json} (prompter : Prompter σ) (bus : Bus σ) :
    Work.Alike draws R (plan manifest prompter bus) (plan { manifest with document } prompter bus) := by
  refine .bind (.log _ _ _ _) fun _ => ?_
  refine .bind (.talk _ (Parameters.resolve_blind _ _ _)) fun parameters => ?_
  refine .bind (.log _ _ _ _) fun _ => .bind (.log _ _ _ _) fun _ => ?_
  exact .bind (.talk _ (Environment.resolve_blind _ _ _)) fun environment => .pure _

/-- A plan has the parameters and the environment to which the manifest is resolved. -/
lemma plan_ok {manifest : Manifest} {prompter : Prompter σ} {bus : Bus σ} {w w' : World σ}
    {planned : ParameterEnv × Environment}
    (h : (plan manifest prompter bus).exec w = (.ok planned, w')) :
    ∃ j₁ j₂ j₃ j₄,
      (Parameters.resolve manifest.parameters prompter bus).run.run j₁ = (.ok planned.1, j₂) ∧
      (Environment.resolve manifest planned.1 bus).run.run j₃ = (.ok planned.2, j₄) := by
  obtain ⟨_, _, _, h⟩ := Work.exec_bind_ok.1 h
  obtain ⟨parameters, _, hparameters, h⟩ := Work.exec_bind_ok.1 h
  obtain ⟨_, _, _, h⟩ := Work.exec_bind_ok.1 h
  obtain ⟨_, _, _, h⟩ := Work.exec_bind_ok.1 h
  obtain ⟨environment, _, henvironment, h⟩ := Work.exec_bind_ok.1 h
  cases h
  rw [Work.exec_talk, Prod.mk.injEq, Result.mapError_eq_ok] at hparameters henvironment
  exact ⟨_, _, _, _, Prod.ext hparameters.1 rfl, Prod.ext henvironment.1 rfl⟩

/-- To plan changes no file. -/
lemma plan_still (manifest : Manifest) (prompter : Prompter σ) (bus : Bus σ) :
    Work.Still (plan manifest prompter bus) := by
  refine .bind (.log _ _) fun _ => .bind (.talk _ _) fun parameters => ?_
  refine .bind (.log _ _) fun _ => .bind (.log _ _) fun _ => ?_
  exact .bind (.talk _ _) fun environment => .pure _

/-- All files that are planned have paths that the manifest gives. -/
lemma plan_names {manifest : Manifest} {prompter : Prompter σ} {w w' : World σ}
    {planned : ParameterEnv × Environment}
    (h : (plan manifest prompter []).exec w = (.ok planned, w')) :
    manifest.Names planned.2.builders := by
  obtain ⟨_, _, _, _, _, henvironment⟩ := plan_ok h
  exact Environment.resolve_names manifest planned.1 _ _ _ henvironment

/-- An installation that succeeds has planned, has supplied the fuels, and has assembled the files
that were there before. -/
lemma runFrom_ok {manifest : Manifest} {source : FileTree → Fuel.Source}
    {settings : AssemblySettings} {prompter : Prompter σ} {bus : Bus σ} {installed : Installed}
    {w w' : World σ}
    (h : (runFrom manifest source settings prompter bus).exec w = (.ok installed, w')) :
    ∃ environment w₁ w₂ w₃,
      (plan manifest prompter bus).exec w = (.ok (installed.parameters, environment), w₁) ∧
      fueled (source w.tree) environment = .ok installed.environment ∧
      (Assembly.run installed.environment settings bus).exec w₂ = (.ok installed.report, w₃) ∧
      w₂.tree = w.tree ∧ w₃.tree = w'.tree := by
  rw [runFrom_eq] at h
  obtain ⟨⟨parameters, environment⟩, w₁, hplan, h⟩ := Work.exec_bind_ok.1 h
  obtain ⟨fuelled, w₂, hfuelled, h⟩ := Work.exec_bind_ok.1 h
  obtain ⟨_, w₃, hlog, h⟩ := Work.exec_bind_ok.1 h
  obtain ⟨report, w₄, hrun, h⟩ := Work.exec_bind_ok.1 h
  obtain ⟨_, _, hlast, h⟩ := Work.exec_bind_ok.1 h
  cases h
  have htree := (plan_still _ _ _).tree hplan
  rw [Work.exec_look, Prod.mk.injEq, Result.mapError_eq_ok, htree] at hfuelled
  obtain ⟨hfuelled, rfl⟩ := hfuelled
  rw [Work.exec_within, Prod.mk.injEq, Result.mapError_eq_ok] at hrun
  refine ⟨environment, w₁, w₃, w₄, hplan, hfuelled, Prod.ext hrun.1 hrun.2, ?_, ?_⟩
  · exact ((Work.Still.log _ _).tree hlog).trans htree
  · exact ((Work.Still.log _ _).tree hlast).symm

/-- Supplying the fuels leaves the paths of the built files. -/
lemma fueled_names {manifest : Manifest} {source : Fuel.Source} {environment fueled' : Environment}
    (h : fueled source environment = .ok fueled') (hnames : manifest.Names environment.builders) :
    manifest.Names fueled'.builders := by
  obtain ⟨tokens, _, h⟩ := Result.bind_eq_ok.1 h
  obtain ⟨builders, hbuilders, h⟩ := Result.bind_eq_ok.1 h
  cases h
  intro e he
  obtain ⟨file, hfile, hcontent⟩ := (Dict.mem_mapM hbuilders).1 he
  obtain ⟨content, _, hsame⟩ := Result.bind_eq_ok.1 hcontent
  obtain ⟨b, hb, hpath⟩ := hnames (e.1, file) hfile
  injection hsame with hsame
  exact ⟨b, hb, by rw [hpath, ← hsame]⟩

end Install

end ConfigPack
