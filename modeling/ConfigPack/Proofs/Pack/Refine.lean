import ConfigPack.Proofs.Assembly.Twin
import ConfigPack.Proofs.Manifest.Numbers
import ConfigPack.Proofs.Pack.Complete
import ConfigPack.Proofs.Pack.Failure
import ConfigPack.Proofs.Pack.Mirror
import ConfigPack.Proofs.Plan

/-!
# Unpacking a bundle is installing its project

The archive of a project is unpacked to what an installation of the project gives: both ask the same
questions, give the same result and leave the same files, apart from what was staged.
-/

namespace ConfigPack

variable {σ : Type}

namespace Pack

variable {t t' : FileTree} {base : Place} {project : BundleSettings} {manifest : Manifest}
  {entries : Dict ByteArray} {files : List String} {staging output : String}

/-! ## Installing side by side -/

/-- A path that an installation may write to: that of a bundled file of the frame, or that of a
built file. -/
def MayWrite (manifest : Manifest) (entries : Dict ByteArray) (path : String) : Prop :=
  inside frameDirectory path ∈ entries.keys ∨ ∃ b ∈ manifest.builders, b.2.path = path

/-- No file is written to a place or below it. -/
def KeepsClear (tree : FileTree) (base : Place) (output : String) (manifest : Manifest)
    (entries : Dict ByteArray) : Prop :=
  ∀ path, MayWrite manifest entries path → Path.staysInside path = true →
    tree.Avoids base (Path.join output path)

/-- The jobs of a project match those of its staged bundle. -/
lemma Mirrors.matches {document : Json} (h : Mirrors t t' project document files staging)
    {environment : Environment} (hclear : KeepsClear t base output manifest entries)
    (hfiles : ∀ file ∈ files, inside frameDirectory file ∈ entries.keys)
    (hnames : manifest.Names environment.builders) :
    List.Forall₂ (Assembly.Matches t base output environment.tokens t t')
      (files.map (Assembly.frameJob (project.frame.getD "")) ++ Assembly.builderJobs environment)
      (files.map (Assembly.frameJob (Path.join staging frameDirectory)) ++
        Assembly.builderJobs environment) := by
  refine List.rel_append ?_ ?_
  · rw [List.forall₂_map_left_iff, List.forall₂_map_right_iff, List.forall₂_same]
    intro file hfile
    obtain ⟨data, hread, hstaged⟩ := h.file file hfile
    exact ⟨rfl, Assembly.render_frameJob hread hstaged, hclear file (.inl (hfiles file hfile))⟩
  · rw [Assembly.builderJobs, List.forall₂_map_left_iff, List.forall₂_map_right_iff,
      List.forall₂_same]
    intro e he
    exact ⟨rfl, rfl, hclear e.2.path (.inr (hnames e he))⟩

/-- Errors of two installations that have chosen among the errors of one assembly. -/
def LiftedRivals (settings : AssemblySettings) (environment : Environment) (tree : FileTree)
    (jobs : List Assembly.Job) (e e' : Failure) : Prop :=
  ∃ blamed other, Assembly.RivalsOf settings environment tree jobs blamed other ∧
    e = .assembly blamed ∧ e' = .assembly other

/-- With one environment a project and its staged bundle are assembled alike, but for the choice
among the errors of an assembly. -/
lemma Mirrors.assemble_alike {document : Json} (h : Mirrors t t' project document files staging)
    (htwin : t.Twin base t t') {environment : Environment} {write : WriteSettings} {parallel : Bool}
    (hclear : KeepsClear t base output manifest entries)
    (hfiles : ∀ file ∈ files, inside frameDirectory file ∈ entries.keys)
    (hnames : manifest.Names environment.builders) (parameters : ParameterEnv) :
    Work.AlikeUpTo
      (LiftedRivals ⟨project.frame, output, write, parallel⟩ environment t
        (files.map (Assembly.frameJob (project.frame.getD "")) ++ Assembly.builderJobs environment))
      True (Assembly.Standing t t') (t.Twin base)
      (Install.assemble ⟨project.frame, output, write, parallel⟩ ([] : Bus σ) parameters environment)
      (Install.assemble ⟨some (Path.join staging frameDirectory), output, write, parallel⟩ []
        parameters environment) := by
  have hrun := Assembly.run_alike (σ := σ) ⟨project.frame, output, write, parallel⟩ htwin
    (Assembly.candidates_of_frame h.listed) (Assembly.candidates_of_frame h.staged)
    (h.matches hclear hfiles hnames)
  have hsub : ∀ u u', Assembly.Standing t t' u u' → t.Twin base u u' := by
    rintro u u' ⟨rfl, rfl⟩
    exact htwin
  refine Work.AlikeFrom.bind_upTo (Work.Alike.log _ _ _ _) (fun _ => ?_) hsub
  refine Work.AlikeUpTo.bind (hrun.within fun e e' hrivals => ⟨e, e', hrivals, rfl, rfl⟩)
    (fun report => ?_) fun _ _ htwins => htwins
  exact Work.Alike.bind (.log _ _ _ _) fun _ => .pure _

/-- Every fuel that an installation asks for has a property. -/
def Requests (manifest : Manifest) (prompter : Prompter σ) (w : World σ) (P : String → Prop) : Prop :=
  ∀ planned w', (Install.plan manifest prompter []).exec w = (.ok planned, w') →
    ∀ name ∈ Install.requested planned.2, P name

/-- The errors of an installation of which chance may choose either: those of the candidates that
cannot be rendered, when all are rendered side by side. -/
def InstallRivals (manifest : Manifest) (fuels : Option String) (settings : AssemblySettings)
    (prompter : Prompter σ) (w : World σ) (e e' : Failure) : Prop :=
  ∃ planned w₁ environment jobs,
    (Install.plan manifest prompter []).exec w = (.ok planned, w₁) ∧
    Install.fueled (Install.fuelSource w.tree fuels) planned.2 = .ok environment ∧
    Assembly.candidates w.tree environment settings.frame = .ok jobs ∧
    LiftedRivals settings environment w.tree jobs e e'

/-- A project and its staged bundle are installed alike, but for the choice among the errors of an
assembly. -/
lemma Mirrors.install_alike (document : Json) (parallel : Bool) {prompter : Prompter σ}
    {write : WriteSettings} {w w' : World σ}
    (h : Mirrors w.tree w'.tree project manifest.document files staging)
    (htwin : w.tree.Twin base w.tree w'.tree) (hhost : w.journal.host = w'.journal.host)
    (hwrites : w.chances.writes = w'.chances.writes)
    (hclear : KeepsClear w.tree base output manifest entries)
    (hfiles : ∀ file ∈ files, inside frameDirectory file ∈ entries.keys)
    (hrequests : Requests manifest prompter w fun name =>
      name ∈ Fuel.referenced manifest.document ∧ FuelInReach w.tree staging name) :
    let settings : AssemblySettings := ⟨project.frame, output, write, parallel⟩
    let installed := (Install.run manifest project.fuels settings prompter []).exec w
    let unpacked := (Install.run { manifest with document } (some (Path.join staging fuelDirectory))
      { settings with frame := some (Path.join staging frameDirectory) } prompter []).exec w'
    Work.Agree (InstallRivals manifest project.fuels settings prompter w) installed.1 unpacked.1 ∧
      Work.Beside True (w.tree.Twin base) installed.2 unpacked.2 := by
  intro settings installed unpacked
  have hplan : Work.Alike True (Assembly.Standing w.tree w'.tree) (Install.plan manifest prompter [])
      (Install.plan { manifest with document } prompter []) := Install.plan_alike prompter []
  obtain ⟨hresult, hbeside⟩ := hplan w w' ⟨hhost, fun _ => hwrites, rfl, rfl⟩
  simp only [installed, unpacked, Install.run, Install.runFrom_eq]
  rw [Work.exec_bind, Work.exec_bind]
  rcases hx : (Install.plan manifest prompter []).exec w with ⟨result, w₁⟩
  rcases hy : (Install.plan { manifest with document } prompter []).exec w' with ⟨result', w₁'⟩
  rw [hx, hy] at hresult hbeside
  cases hresult
  obtain ⟨htree, htree'⟩ : w₁.tree = w.tree ∧ w₁'.tree = w'.tree := hbeside.tree
  cases result with
  | error e =>
    refine ⟨.inl rfl, hbeside.host, hbeside.writes, ?_⟩
    change w.tree.Twin base w₁.tree w₁'.tree
    rw [htree, htree']
    exact htwin
  | ok planned =>
    -- each fuel that is asked for is read from the staged copy with the same content
    have hfuels : Install.fueled (Install.fuelSource w.tree project.fuels) planned.2 =
        Install.fueled (Install.fuelSource w'.tree (some (Path.join staging fuelDirectory)))
          planned.2 := by
      refine Install.fueled_congr fun name hname => ?_
      obtain ⟨hreferenced, hreach⟩ := hrequests planned w₁ hx name hname
      exact (h.fuel name hreferenced hreach).symm
    simp only [Work.exec_bind, Work.exec_look, htree, htree', ← hfuels]
    rcases hfueled : Install.fueled (Install.fuelSource w.tree project.fuels) planned.2 with
      e | environment
    · refine ⟨.inl rfl, hbeside.host, hbeside.writes, ?_⟩
      change w.tree.Twin base w₁.tree w₁'.tree
      rw [htree, htree']
      exact htwin
    · -- with the same environment, it is the assemblies that are compared
      have hnames := Install.fueled_names hfueled (Install.plan_names hx)
      obtain ⟨hagree, hleft⟩ :=
        h.assemble_alike htwin hclear hfiles hnames planned.1 w₁ w₁' hbeside
      refine ⟨hagree.imp id ?_, hleft⟩
      rintro ⟨e, e', he, he', hrivals⟩
      exact ⟨e, e', he, he', planned, w₁, environment, _, hx, hfueled,
        Assembly.candidates_of_frame h.listed, hrivals⟩

/-! ## What is bundled -/

/-- The document of a manifest that was loaded is that of a manifest. -/
lemma Bundles.ofJson (h : Bundles t project manifest entries) :
    Manifest.ofJson manifest.document = .ok manifest := by
  obtain ⟨path, _, hload⟩ := h.loaded
  obtain ⟨document, _, hread⟩ := Result.bind_eq_ok.1 hload
  rw [Result.mapError_eq_ok] at hread
  rwa [Manifest.document_of_ofJson hread]

/-- A document is read again from its text as the same document, numbers aside. -/
def Rereads (document : Json) : Prop :=
  ∃ document', Json5.parse (document.indented ++ "\n") = .ok document' ∧
    document'.zeroed = document.zeroed

/-- The staged manifest is read as the entry is. -/
lemma lowerExtension_manifest (staging : String) :
    Path.lowerExtension manifestName = Path.lowerExtension (Path.join staging manifestName) := by
  have hnames : Path.names (Path.join staging manifestName) =
      Path.names staging ++ [manifestName] := by
    rw [Path.names_join isFilePath_manifest.isAbsolute, names_manifest]
  exact Path.lowerExtension_eq (names_manifest.trans (List.nil_append _).symm) hnames (by decide)

/-- The manifest of a staged bundle is that of the project, numbers in its document aside. -/
lemma Mirrors.load (h : Mirrors t t' project manifest.document files staging)
    (hofJson : Manifest.ofJson manifest.document = .ok manifest)
    (hrereads : Rereads manifest.document) :
    ∃ document, Manifest.load t' (Path.join staging manifestName) =
      .ok { manifest with document } := by
  obtain ⟨document, hparse, hsame⟩ := hrereads
  have hextension : Path.lowerExtension (Path.join staging manifestName) = "json5" := by
    rw [← lowerExtension_manifest]
    decide +kernel
  have hdocument : Manifest.loadDocument t' (Path.join staging manifestName) = .ok document := by
    rw [Manifest.loadDocument, h.manifest]
    simp only [Except.mapError, bind, Except.bind, Document.parse, hextension, hparse]
  refine ⟨document, Result.bind_eq_ok.2 ⟨document, hdocument, ?_⟩⟩
  rw [Result.mapError_eq_ok]
  exact Manifest.ofJson_congr hsame hofJson

/-! ## Unpacking -/

/-- A world that differs from another only in what is logged. -/
structure SameButLog (w w' : World σ) : Prop where
  tree : w'.tree = w.tree
  host : w'.journal.host = w.journal.host
  chances : w'.chances = w.chances

/-- Logging more changes nothing else. -/
lemma SameButLog.trans {w w' w'' : World σ} (h : SameButLog w w') (h' : SameButLog w' w'') :
    SameButLog w w'' :=
  ⟨h'.tree.trans h.tree, h'.host.trans h.host, h'.chances.trans h.chances⟩

/-- The warnings about a manifest are only logged. -/
lemma logWarnings_exec (manifest : Manifest) (w : World σ) :
    ∃ w', (manifest.logWarnings : Work σ Failure Unit).exec w = (.ok (), w') ∧ SameButLog w w' := by
  rw [Manifest.logWarnings]
  induction manifest.warnings generalizing w with
  | nil => exact ⟨w, rfl, rfl, rfl, rfl⟩
  | cons warning warnings ih =>
    rw [Work.exec_forM_cons, Work.exec_log]
    obtain ⟨w', hexec, hsame⟩ := ih _
    exact ⟨w', hexec, hsame.tree, hsame.host, hsame.chances⟩

/-- A checksum that fits is only logged. -/
lemma checkData_ok {data : ByteArray} {expected : Option String}
    (h : ∀ wanted, expected = some wanted → verifyChecksum data wanted = .ok ()) (w : World σ) :
    ∃ w', (checkData data expected).exec w = (.ok (), w') ∧ SameButLog w w' := by
  cases expected with
  | none => exact ⟨w, rfl, rfl, rfl, rfl⟩
  | some wanted =>
    rw [checkData, h wanted rfl]
    exact ⟨_, rfl, rfl, rfl, rfl⟩

/-- Where listeners leave the entries of an archive alone, they are those that are read. -/
lemma readEntries_heard {data : ByteArray} {bus : Bus σ} {w : World σ} {host : σ}
    (h : Archive.entries data = .ok entries)
    (hheard : (bus.emitExtract entries).run.run w.journal.host = (.ok entries, host)) :
    ∃ w', (readEntries data bus).exec w = (.ok entries, w') ∧ w'.tree = w.tree ∧
      w'.journal.host = host ∧ w'.chances = w.chances := by
  simp only [readEntries, Work.exec_bind, Work.exec_log, Work.exec_liftM, h, Except.mapError,
    Work.exec_withHost, hheard, Work.exec_pure]
  exact ⟨_, rfl, rfl, rfl, rfl⟩

/-- Without listeners they are. -/
lemma readEntries_nil {data : ByteArray} (h : Archive.entries data = .ok entries) (w : World σ) :
    ∃ w', (readEntries data []).exec w = (.ok entries, w') ∧ SameButLog w w' := by
  have hheard : (Bus.emitExtract ([] : Bus σ) entries).run.run w.journal.host =
      (.ok entries, w.journal.host) := rfl
  obtain ⟨w', hread, htree, hhost, hchances⟩ := readEntries_heard h hheard
  exact ⟨w', hread, htree, hhost, hchances⟩

/-- An archive with a manifest is unpacked by way of what its entries are staged to. -/
lemma unpack_staged {settings : UnpackSettings} {prompter : Prompter σ} {w : World σ}
    (hentries : Archive.entries (Archive.ofEntries entries) = .ok entries)
    (hmanifest : manifestName ∈ entries.keys)
    (hchecksum : ∀ wanted, settings.checksum = some wanted →
      verifyChecksum (Archive.ofEntries entries) wanted = .ok ())
    (hprivate : Private w.tree staging base) (hstageable : Stageable staging entries.entries) :
    ∃ w', Layout w.tree base entries.entries w'.tree ∧ w'.journal.host = w.journal.host ∧
      w'.chances = w.chances ∧
      (unpack (Archive.ofEntries entries) staging settings prompter []).exec w =
        (Unpacked.installed <$> installStaged staging settings prompter []).exec w' := by
  obtain ⟨w₁, hcheck, hsame₁⟩ := checkData_ok hchecksum w
  obtain ⟨w₂, hread, hsame₂⟩ := readEntries_nil hentries w₁
  have hsame := hsame₁.trans hsame₂
  have hlayout : Layout w.tree base [] w₂.tree := by
    rw [hsame.tree]
    exact hprivate.layout
  obtain ⟨t', hstage, hstaged⟩ := stageEntries_ok hprivate hstageable rfl hlayout
  refine ⟨{ w₂ with tree := t' }, hstaged, hsame.host, hsame.chances, ?_⟩
  have hcontains : entries.contains manifestName = true := Dict.contains_iff.2 hmanifest
  rw [map_eq_pure_bind]
  simp only [unpack_eq, Work.exec_bind, hcheck, hread, unpackEntries, if_pos hcontains, hstage]

/-- What is staged is installed with the manifest found there. -/
lemma installStaged_exec {settings : UnpackSettings} {prompter : Prompter σ} {bus : Bus σ}
    {loaded : Manifest} {w : World σ}
    (h : Manifest.load w.tree (Path.join staging manifestName) = .ok loaded) :
    ∃ w', SameButLog w w' ∧
      (installStaged staging settings prompter bus).exec w =
        (Install.run loaded (some (Path.join staging fuelDirectory))
          ⟨some (Path.join staging frameDirectory), settings.output, settings.write,
            settings.parallel⟩ prompter bus).exec w' := by
  obtain ⟨w', hwarn, hsame⟩ := logWarnings_exec loaded w
  refine ⟨w', hsame, ?_⟩
  rw [installStaged, Work.exec_bind, Work.exec_look, h]
  change Work.exec (loaded.logWarnings >>= fun _ => _) w = _
  rw [Work.exec_bind, hwarn]

/-- An archive with a manifest is unpacked only where no path of its entries is too long. -/
lemma unpack_size {settings : UnpackSettings} {prompter : Prompter σ} {unpacked : Unpacked}
    {w w' : World σ} (hentries : Archive.entries (Archive.ofEntries entries) = .ok entries)
    (hmanifest : manifestName ∈ entries.keys)
    (h : (unpack (Archive.ofEntries entries) staging settings prompter []).exec w =
      (.ok unpacked, w')) {name : String} (hname : name ∈ entries.keys) :
    (Path.join staging name).utf8ByteSize < FileTree.pathLimit := by
  obtain ⟨data, he⟩ := Dict.mem_keys.1 hname
  have hsafe := Archive.entries_safe hentries name hname
  rw [unpack_eq] at h
  obtain ⟨_, w₁, _, h⟩ := Work.exec_bind_ok.1 h
  obtain ⟨kept, w₂, hread, h⟩ := Work.exec_bind_ok.1 h
  obtain ⟨w₂', hread', -⟩ := readEntries_nil hentries w₁
  rw [hread'] at hread
  cases hread
  rw [unpackEntries, if_pos (Dict.contains_iff.2 hmanifest)] at h
  obtain ⟨_, w₃, hstage, _⟩ := Work.exec_bind_ok.1 h
  obtain ⟨before, after, hone⟩ := Work.exec_forM_ok hstage he
  rw [Work.exec_within, Prod.mk.injEq, Result.mapError_eq_ok] at hone
  have hentry : (stageEntry staging (name, data)).exec before = (.ok (), after) :=
    Prod.ext hone.1 hone.2
  rw [stageEntry_eq hsafe] at hentry
  obtain ⟨_, w₄, _, hwrite⟩ := Work.exec_bind_ok.1 hentry
  exact (FileTree.fits_of_write (Work.exec_change_ok hwrite).1).size

/-- When the bundle of a project can be unpacked by way of a directory. -/
structure Unpackable (w : World σ) (project : BundleSettings) (manifest : Manifest)
    (entries : Dict ByteArray) (staging : String) (base : Place) (output : String)
    (prompter : Prompter σ) : Prop where
  sound : w.tree.Sound
  /-- No two files of the frame are listed by one path, as may be when names are no texts. -/
  distinct : ∀ frame files, project.frame = some frame →
    Assembly.listFiles w.tree frame = .ok files → files.Nodup
  /-- No file of the frame and no fuel has a backslash in its name. -/
  noBackslash : ∀ name ∈ entries.keys, '\\' ∉ name.toList
  /-- The archive gives back the names and the bytes that it was given. -/
  returned : Archive.Returned entries
  rereads : Rereads manifest.document
  /-- The directory is new, and reached without links. -/
  isPrivate : Private w.tree staging base
  keepsClear : KeepsClear w.tree base output manifest entries
  requests : Requests manifest prompter w (· ∈ Fuel.referenced manifest.document)

/-- No temporary file has the name with which an entry begins. -/
lemma Holds.not_temporary {document : Json} {e : String × ByteArray} (hsound : t.Sound)
    (h : Holds t project document e) (name : TemporaryName) :
    ¬ [name.text] <+: Path.names e.1 := by
  have hfirst : ∀ first rest, (first.toList.head? = some '.' → False) →
      Path.names e.1 = first :: rest → ¬ [name.text] <+: Path.names e.1 := by
    intro first rest hdot hnames hpre
    rw [hnames, List.cons_prefix_cons] at hpre
    apply hdot
    rw [← hpre.1, TemporaryName.text, String.toList_append]
    rfl
  rcases h.cases hsound with rfl | ⟨_, _, _, hcopied⟩ | ⟨_, _, _, hcopied⟩
  · exact hfirst _ _ (by decide) names_manifest
  · exact hfirst _ _ (by decide) (hcopied.names hsound frameDirectory_isName)
  · exact hfirst _ _ (by decide) (hcopied.names hsound fuelDirectory_isName)

/-- In a tree with a project its bundle is staged to what mirrors it. -/
lemma Layout.twin {document : Json} (h : Layout t base entries.entries t') (hsound : t.Sound)
    (hprivate : Private t staging base) (hbundle : bundleEntries t project document = .ok entries) :
    t.Twin base t t' := by
  have hworking : ¬ FileTree.Below base t.workingDirectory := by
    intro hbelow
    have hdir := hsound.working
    rw [hprivate.vacant _ hbelow] at hdir
    cases hdir
  refine ⟨.refl t, h.workingDirectory, hworking, fun name => ?_, h.outside⟩
  by_cases hbelow : FileTree.Below base (t.workingDirectory ++ [name.text])
  · -- then the working directory is the staging directory, where no entry begins like that
    have hbase : base = t.workingDirectory := by
      by_contra hne
      rcases List.prefix_concat_iff.1 hbelow.1 with hsame | hpre
      · exact hbelow.2 hsame.symm
      · exact hworking ⟨hpre, fun hsame => hne hsame.symm⟩
    rw [hprivate.vacant _ hbelow]
    by_contra hnode
    rw [← hbase] at hnode
    obtain ⟨e, he, hpre⟩ := h.only _ (by simp) hnode
    exact ((mem_bundleEntries hbundle e).1 he).not_temporary hsound name hpre
  · exact h.outside _ hbelow

section

variable {settings : UnpackSettings} {prompter : Prompter σ} {w v : World σ}
  (h : Bundles w.tree project manifest entries)
  (hready : Unpackable w project manifest entries staging base settings.output prompter)
  (hchecksum : ∀ wanted, settings.checksum = some wanted →
    verifyChecksum (Archive.ofEntries entries) wanted = .ok ())
  (hsize : ∀ name ∈ entries.keys, (Path.join staging name).utf8ByteSize < FileTree.pathLimit)
  (hsame : v.tree = w.tree)

include h hready hchecksum hsize hsame

/-- The archive of a bundled project is unpacked by installing what mirrors the project. -/
lemma Bundles.mirrored :
    ∃ files document v', Mirrors w.tree v'.tree project manifest.document files staging ∧
      w.tree.Twin base w.tree v'.tree ∧ v'.journal.host = v.journal.host ∧
      v'.chances = v.chances ∧ (∀ file ∈ files, inside frameDirectory file ∈ entries.keys) ∧
      (Pack.unpack (Archive.ofEntries entries) staging settings prompter []).exec v =
        (Unpacked.installed <$> Install.run { manifest with document }
          (some (Path.join staging fuelDirectory))
          ⟨some (Path.join staging frameDirectory), settings.output, settings.write,
            settings.parallel⟩ prompter []).exec v' := by
  have hsound := hready.sound
  have hprivate := hready.isPrivate
  have hstageable := stageable_of_bundleEntries hsound h.entries hready.noBackslash hsize
  obtain ⟨files, hlisted⟩ := listed_of_bundleEntries h.entries
  have hnodup : files.Nodup := by
    cases hlisted with
    | none => exact .nil
    | some hframe hfiles => exact hready.distinct _ _ hframe hfiles
  rw [← hsame] at hprivate
  obtain ⟨v₁, hlayout, hhost₁, hchances₁, hunpack⟩ := unpack_staged
    (h.entries_ofEntries hsound hready.noBackslash hready.returned) h.mem_keys_manifest hchecksum
    hprivate hstageable
  rw [hsame] at hprivate hlayout
  have hmirrors := hlayout.mirrors hprivate hstageable hsound h.entries hlisted hnodup
  obtain ⟨document, hload⟩ := hmirrors.load h.ofJson hready.rereads
  obtain ⟨v₂, hsame₂, hstaged⟩ := installStaged_exec hload
  refine ⟨files, document, v₂, ?_, ?_, hsame₂.host.trans hhost₁, hsame₂.chances.trans hchances₁,
    fun file hfile => hlisted.mem_keys h.entries hfile, ?_⟩
  · rw [hsame₂.tree]
    exact hmirrors
  · rw [hsame₂.tree]
    exact hlayout.twin hsound hprivate h.entries
  · rw [hunpack, Work.exec_map, Work.exec_map, hstaged]

/-- The archive of a bundled project is unpacked to what installing the project gives. -/
lemma Bundles.unpack (hhost : v.journal.host = w.journal.host)
    (hwrites : v.chances.writes = w.chances.writes)
    (hreach : Requests manifest prompter w (FuelInReach w.tree staging)) :
    let installing : AssemblySettings :=
      ⟨project.frame, settings.output, settings.write, settings.parallel⟩
    let installed := (Install.run manifest project.fuels installing prompter []).exec w
    let unpacked := (Pack.unpack (Archive.ofEntries entries) staging settings prompter []).exec v
    (unpacked.1 = installed.1.map .installed ∨ ∃ blamed other,
        installed.1 = .error blamed ∧ unpacked.1 = .error other ∧
        InstallRivals manifest project.fuels installing prompter w blamed other) ∧
      unpacked.2.journal.host = installed.2.journal.host ∧
      ∀ place, ¬ FileTree.Below base place →
        unpacked.2.tree.node? place = installed.2.tree.node? place := by
  intro installing installed unpacked
  obtain ⟨files, document, v', hmirrors, htwin, hhost', hchances, hfiles, hunpack⟩ :=
    h.mirrored hready hchecksum hsize hsame
  obtain ⟨hagree, hbeside⟩ := hmirrors.install_alike document settings.parallel htwin
    (hhost'.trans hhost).symm (by rw [hchances, hwrites]) hready.keepsClear hfiles
    fun planned w₁ hplan name hname =>
      ⟨hready.requests planned w₁ hplan name hname, hreach planned w₁ hplan name hname⟩
  have hall : unpacked = _ := hunpack.trans (Work.exec_map _ _ _)
  rw [hall]
  refine ⟨?_, hbeside.host.symm, fun place hplace => hbeside.tree.node place hplace⟩
  rcases hagree with hsame | ⟨blamed, other, hblamed, hother, hrivals⟩
  · exact .inl (congrArg (Except.map Unpacked.installed) hsame.symm)
  · refine .inr ⟨blamed, other, hblamed, ?_, hrivals⟩
    rw [hother]
    rfl

/-- Where a fuel that is asked for cannot be reached, unpacking fails. -/
lemma Bundles.unpack_far (hhost : v.journal.host = w.journal.host)
    {planned : ParameterEnv × Environment} {w₁ : World σ}
    (hplan : (Install.plan manifest prompter []).exec w = (.ok planned, w₁)) {name : String}
    (hname : name ∈ Install.requested planned.2) (hfar : ¬ FuelInReach w.tree staging name) :
    ∃ e, ((Pack.unpack (Archive.ofEntries entries) staging settings prompter []).exec v).1 =
      .error e := by
  obtain ⟨files, document, v', hmirrors, -, hhost', -, -, hunpack⟩ :=
    h.mirrored hready hchecksum hsize hsame
  rcases hinstall : (Install.run { manifest with document } (some (Path.join staging fuelDirectory))
      ⟨some (Path.join staging frameDirectory), settings.output, settings.write, settings.parallel⟩
      prompter []).exec v' with ⟨e | installed, v''⟩
  · exact ⟨e, by rw [hunpack, Work.exec_map, hinstall]; rfl⟩
  -- both plans ask for the same fuels, so all of them have been found
  obtain ⟨environment, v₁, _, _, hplan', hfueled, -⟩ := Install.runFrom_ok hinstall
  have hplans : Work.Alike False (fun _ _ => True) (Install.plan manifest prompter [])
      (Install.plan { manifest with document } prompter []) := Install.plan_alike prompter []
  obtain ⟨hresult, -⟩ := hplans w v' ⟨(hhost'.trans hhost).symm, False.elim, trivial⟩
  rw [hplan, hplan'] at hresult
  cases hresult
  obtain ⟨content, hcontent⟩ := Install.exists_of_fueled hfueled hname
  exact absurd hcontent
    (hmirrors.farFuel name (hready.requests _ w₁ hplan name hname) hfar content)

end

end Pack

/-- Bundling a project and unpacking its archive refines an installation of the project.  The
archive stands at the path of the bundle, unless nothing was to be written.  Where no path of a
staged entry is too long and every fuel that is asked for can be reached, both give one result, ask
the same questions and leave the same files, apart from what was staged; only when several
candidates are rendered side by side and cannot be, they may report different ones of their errors.
Where a path is too long or a fuel cannot be reached, unpacking fails. -/
theorem unpack_refines_install {τ : Type} {project : BundleSettings} {bundled : Bundled}
    {w₀ w₁ : World τ} (hbundle : (Pack.bundle project).exec w₀ = (.ok bundled, w₁)) :
    ∃ manifest entries, Pack.Bundles w₀.tree project manifest entries ∧
      bundled.checksum = checksum .base64url (Archive.ofEntries entries) ∧
      (project.dryRun = true → w₁.tree = w₀.tree) ∧
      (project.dryRun = false → w₁.tree.read bundled.path = .ok (Archive.ofEntries entries)) ∧
      ∀ (w v : World σ) (staging : String) (base : Place) (settings : UnpackSettings)
        (prompter : Prompter σ),
        v.tree = w.tree → v.journal.host = w.journal.host →
        v.chances.writes = w.chances.writes →
        Pack.Bundles w.tree project manifest entries →
        Pack.Unpackable w project manifest entries staging base settings.output prompter →
        (∀ wanted, settings.checksum = some wanted →
          verifyChecksum (Archive.ofEntries entries) wanted = .ok ()) →
        let installing : AssemblySettings :=
          ⟨project.frame, settings.output, settings.write, settings.parallel⟩
        let installed := (Install.run manifest project.fuels installing prompter []).exec w
        let unpacked :=
          (Pack.unpack (Archive.ofEntries entries) staging settings prompter []).exec v
        ((∀ name ∈ entries.keys, (Path.join staging name).utf8ByteSize < FileTree.pathLimit) →
          Pack.Requests manifest prompter w (Pack.FuelInReach w.tree staging) →
          (unpacked.1 = installed.1.map .installed ∨ ∃ blamed other,
              installed.1 = .error blamed ∧ unpacked.1 = .error other ∧
              Pack.InstallRivals manifest project.fuels installing prompter w blamed other) ∧
            unpacked.2.journal.host = installed.2.journal.host ∧
            ∀ place, ¬ FileTree.Below base place →
              unpacked.2.tree.node? place = installed.2.tree.node? place) ∧
        (∀ name ∈ entries.keys, FileTree.pathLimit ≤ (Path.join staging name).utf8ByteSize →
          ∃ e, unpacked.1 = .error e) ∧
        (¬ Pack.Requests manifest prompter w (Pack.FuelInReach w.tree staging) →
          ∃ e, unpacked.1 = .error e) := by
  obtain ⟨manifest, entries, hproject, hchecksum, hwritten⟩ := Pack.bundle_ok hbundle
  refine ⟨manifest, entries, hproject, hchecksum, hwritten.dry, hwritten.read, ?_⟩
  intro w v staging base settings prompter hsame hhost hwrites h hready hsum installing installed
    unpacked
  have hentries := h.entries_ofEntries hready.sound hready.noBackslash hready.returned
  have hlong : ∀ name ∈ entries.keys, FileTree.pathLimit ≤ (Path.join staging name).utf8ByteSize →
      ∃ e, unpacked.1 = .error e := by
    intro name hname hlong
    rcases hx : unpacked with ⟨e | result, v'⟩
    · exact ⟨e, rfl⟩
    · have hshort := Pack.unpack_size hentries h.mem_keys_manifest hx hname
      omega
  refine ⟨fun hsize hreach => h.unpack hready hsum hsize hsame hhost hwrites hreach, hlong,
    fun hfar => ?_⟩
  by_cases hsize : ∀ name ∈ entries.keys, (Path.join staging name).utf8ByteSize < FileTree.pathLimit
  · obtain ⟨planned, w₂, hplan, name, hname, hfar⟩ : ∃ planned w₂,
        (Install.plan manifest prompter []).exec w = (.ok planned, w₂) ∧
        ∃ name ∈ Install.requested planned.2, ¬ Pack.FuelInReach w.tree staging name := by
      simpa [Pack.Requests] using hfar
    exact h.unpack_far hready hsum hsize hsame hhost hplan hname hfar
  · push Not at hsize
    obtain ⟨name, hname, hsize⟩ := hsize
    exact hlong name hname hsize

namespace Pack

/-- A frame with one file, and an empty directory for staging. -/
def plainTree : FileTree :=
  ⟨[(["rocket.config.json"], .file "{}".toUTF8 FileTree.newFileMode), (["frame"], .directory),
    (["frame", "a.txt"], .file "x".toUTF8 FileTree.newFileMode), (["staging"], .directory)], []⟩

/-- The entries of its bundle. -/
def plainEntries : Dict ByteArray :=
  ⟨[("frame/a.txt", "x".toUTF8), ("rocket.config.json5", "{}\n".toUTF8)], by decide⟩

/-- A world with this tree, where nothing goes wrong by chance. -/
def plainWorld : World Unit := ⟨⟨#[], ()⟩, plainTree, .calm⟩

/-- The project of the tree is bundled, and its archive is written. -/
lemma plainWorld_bundled :
    Bundles plainWorld.tree frameProject emptyManifest plainEntries ∧
      ∃ bundled w₁, (bundle frameProject).exec plainWorld = (.ok bundled, w₁) := by
  have hpath : manifestPath plainTree frameProject = .ok "./rocket.config.json" := by
    decide +kernel
  have hproject : Bundles plainTree frameProject emptyManifest plainEntries := by
    refine frameProject_bundles hpath (by decide +kernel) (by decide +kernel)
      (Result.toOption_eq_some.1 ?_)
    rw [bundleEntries, manifestContent_empty]
    decide +kernel
  exact ⟨hproject, frameProject_written hproject (by decide +kernel) (by decide +kernel)⟩

/-- The tree is well formed. -/
lemma plainTree_sound : plainTree.Sound := by
  refine FileTree.sound_of_nodes (by decide) ?_ rfl
  simp only [plainTree, List.forall_mem_cons]
  exact ⟨rfl, rfl, rfl, rfl, by simp⟩

/-- The archive of the entries gives them back. -/
lemma plainEntries_returned : Archive.Returned plainEntries :=
  Archive.returned_of_fits ⟨by decide, by decide, by decide⟩

/-- There is no backslash in their names. -/
lemma plainEntries_noBackslash : ∀ name ∈ plainEntries.keys, '\\' ∉ name.toList := by decide

/-- There are no links in the world. -/
lemma plainWorld_linkFree : plainWorld.tree.LinkFree [] :=
  FileTree.linkFree_of_nodes (by simp [plainWorld, plainTree]) []

/-- The staging directory is empty, and no link leads there. -/
lemma plainWorld_private : Private plainWorld.tree "staging" ["staging"] where
  ne_empty := by decide
  hasNul := by decide
  enters := by
    have hnames : Path.names "staging" = ["staging"] := rfl
    rw [hnames]
    exact .down (by decide) (by decide) rfl .here
  directory := rfl
  vacant := by
    rintro _ ⟨⟨rest, rfl⟩, hne⟩
    cases rest with
    | nil => exact absurd (List.append_nil _) hne
    | cons name more => rfl

/-- The manifest asks for no fuels. -/
lemma plainWorld_requests (P : String → Prop) :
    Requests emptyManifest Prompter.defaults plainWorld P := by
  intro planned w' hplan name hname
  cases hplan
  cases hname

/-- The bundle of the tree can be unpacked by way of its staging directory. -/
lemma plainWorld_unpackable :
    Unpackable plainWorld frameProject emptyManifest plainEntries "staging" ["staging"] "out"
      Prompter.defaults where
  sound := plainTree_sound
  distinct := by
    rintro _ files ⟨⟩ hfiles
    have hone : (Assembly.listFiles plainWorld.tree "frame").toOption = some ["a.txt"] := by
      decide +kernel
    rw [hfiles] at hone
    cases hone
    exact List.nodup_singleton _
  noBackslash := plainEntries_noBackslash
  returned := plainEntries_returned
  rereads := ⟨.object [], by rfl, rfl⟩
  isPrivate := plainWorld_private
  keepsClear := by
    intro path _ hpath
    obtain ⟨hrel, hup⟩ := Path.staysInside_iff.1 hpath
    have hnames : Path.names (Path.join "out" path) = "out" :: Path.names path := by
      rw [Path.names_join hrel]
      rfl
    refine FileTree.avoids_of_linkFree plainWorld_linkFree ?_ ?_
    · rw [hnames]
      simpa using hup
    · rw [hnames, FileTree.start_eq (Path.isAbsolute_join hrel)]
      have hstart : FileTree.start plainWorld.tree.workingDirectory "out" = [] := rfl
      simp [hstart, List.cons_prefix_cons]
  requests := plainWorld_requests _

/-- The project is installed. -/
def frameInstall (w : World Unit) : Except Failure Installed × World Unit :=
  (Install.run emptyManifest none ⟨some "frame", "out", ⟨.off, false⟩, true⟩ Prompter.defaults
    []).exec w

/-- A bundle of it is unpacked by way of a directory. -/
def frameUnpack (w : World Unit) (entries : Dict ByteArray) (staging : String) :
    Except Failure Unpacked × World Unit :=
  (unpack (Archive.ofEntries entries) staging ⟨none, .ask, "out", ⟨.off, false⟩, true⟩
    Prompter.defaults []).exec w

/-- The entries of the archive are read back. -/
lemma plainEntries_read : Archive.entries (Archive.ofEntries plainEntries) = .ok plainEntries :=
  plainWorld_bundled.1.entries_ofEntries plainTree_sound plainEntries_noBackslash plainEntries_returned

/-- The file of the frame is installed, and nothing else. -/
lemma plainInstall_succeeds :
    (∃ installed, (frameInstall plainWorld).1 = .ok installed) ∧
      (frameInstall plainWorld).2.tree.content? ["out", "a.txt"] = some "x".toUTF8 ∧
      (frameInstall plainWorld).2.tree.content? ["out", "rocket.config.json5"] = none := by
  have hrun : (frameInstall plainWorld).1.toOption.isSome = true ∧
      (frameInstall plainWorld).2.tree.content? ["out", "a.txt"] = some "x".toUTF8 ∧
      (frameInstall plainWorld).2.tree.content? ["out", "rocket.config.json5"] = none := by
    decide +kernel
  obtain ⟨installed, hinstalled⟩ := Option.isSome_iff_exists.1 hrun.1
  exact ⟨⟨installed, Result.toOption_eq_some.1 hinstalled⟩, hrun.2⟩

end Pack

/-- For instance, a frame with one file is bundled and the archive is written. Unpacking the archive
ends as an installation does and leaves the same file. -/
theorem plain_bundle_is_installed :
    ∃ bundled w₁ installed,
      (Pack.bundle Pack.frameProject).exec Pack.plainWorld = (.ok bundled, w₁) ∧
      w₁.tree.read bundled.path = .ok (Archive.ofEntries Pack.plainEntries) ∧
      (Pack.frameInstall Pack.plainWorld).1 = .ok installed ∧
      (Pack.frameUnpack Pack.plainWorld Pack.plainEntries "staging").1 = .ok (.installed installed) ∧
      (Pack.frameUnpack Pack.plainWorld Pack.plainEntries "staging").2.tree.node? ["out", "a.txt"] =
        (Pack.frameInstall Pack.plainWorld).2.tree.node? ["out", "a.txt"] ∧
      (Pack.frameInstall Pack.plainWorld).2.tree.content? ["out", "a.txt"] = some "x".toUTF8 := by
  obtain ⟨hproject, bundled, w₁, hbundle⟩ := Pack.plainWorld_bundled
  obtain ⟨manifest, entries, hsame, -, -, hread, hunpack⟩ :=
    unpack_refines_install (σ := Unit) hbundle
  obtain ⟨rfl, rfl⟩ := hproject.unique hsame
  obtain ⟨hboth, -⟩ := hunpack Pack.plainWorld Pack.plainWorld "staging" ["staging"]
    ⟨none, .ask, "out", ⟨.off, false⟩, true⟩ Prompter.defaults rfl rfl rfl hproject
    Pack.plainWorld_unpackable (by simp)
  have hinstall : (Install.run Pack.emptyManifest Pack.frameProject.fuels
      ⟨Pack.frameProject.frame, "out", ⟨.off, false⟩, true⟩ Prompter.defaults []).exec
      Pack.plainWorld = Pack.frameInstall Pack.plainWorld := rfl
  have hunpacked : (Pack.unpack (Archive.ofEntries Pack.plainEntries) "staging"
      ⟨none, .ask, "out", ⟨.off, false⟩, true⟩ Prompter.defaults []).exec Pack.plainWorld =
      Pack.frameUnpack Pack.plainWorld Pack.plainEntries "staging" := rfl
  obtain ⟨hresult, -, hnodes⟩ := hboth (by decide) (Pack.plainWorld_requests _)
  simp only [hinstall, hunpacked] at hresult hnodes
  obtain ⟨⟨installed, hinstalled⟩, hcontent, -⟩ := Pack.plainInstall_succeeds
  rw [hinstalled] at hresult
  obtain hresult | ⟨_, _, hfails, -⟩ := hresult
  · refine ⟨bundled, w₁, installed, hbundle, hread rfl, hinstalled, hresult, ?_, hcontent⟩
    exact hnodes ["out", "a.txt"] fun hbelow => absurd hbelow.1 (by decide)
  · cases hfails

namespace Pack

/-- A path of directories whose names have one length. -/
def nestedDirectory (depth width : Nat) : String :=
  String.ofList (List.replicate depth (List.replicate width 's' ++ ['/'])).flatten

/-- Its length in characters. -/
lemma length_nestedDirectory (depth width : Nat) :
    (nestedDirectory depth width).toList.length = depth * (width + 1) := by
  rw [nestedDirectory, String.toList_ofList]
  simp

/-- A bundle is unpacked by way of the output directory, and its manifest is left there. -/
lemma plainUnpack_out : (frameUnpack plainWorld plainEntries "out").1.toOption.isSome = true ∧
    (frameUnpack plainWorld plainEntries "out").2.tree.content? ["out", "rocket.config.json5"] =
      some "{}\n".toUTF8 := by
  rw [frameUnpack, unpack, plainEntries_read]
  decide +kernel

/-- A frame with two files that are listed by one path, since the name of one is no text. -/
def lossyTree : FileTree :=
  ⟨[(["rocket.config.json"], .file "{}".toUTF8 FileTree.newFileMode), (["frame"], .directory),
    (["frame", "a\ufffd"], .file "x".toUTF8 FileTree.newFileMode),
    (["frame", FileName.ofBytes ⟨#[97, 255]⟩], .file "y".toUTF8 FileTree.newFileMode),
    (["staging"], .directory)], []⟩

/-- The entries of its bundle. -/
def lossyEntries : Dict ByteArray :=
  ⟨[("frame/a\ufffd", "x".toUTF8), ("rocket.config.json5", "{}\n".toUTF8)], by decide⟩

/-- A world with this tree, where nothing goes wrong by chance. -/
def lossyWorld : World Unit := ⟨⟨#[], ()⟩, lossyTree, .calm⟩

/-- The project is bundled, its archive is written, and it is read back. -/
lemma lossyWorld_bundled :
    Bundles lossyWorld.tree frameProject emptyManifest lossyEntries ∧
      (∃ bundled w₁, (bundle frameProject).exec lossyWorld = (.ok bundled, w₁)) ∧
      Archive.entries (Archive.ofEntries lossyEntries) = .ok lossyEntries := by
  have hpath : manifestPath lossyTree frameProject = .ok "./rocket.config.json" := by
    decide +kernel
  have hproject : Bundles lossyTree frameProject emptyManifest lossyEntries := by
    refine frameProject_bundles hpath (by decide +kernel) (by decide +kernel)
      (Result.toOption_eq_some.1 ?_)
    rw [bundleEntries, manifestContent_empty]
    decide +kernel
  have hsound : lossyTree.Sound := by
    refine FileTree.sound_of_nodes (by decide +kernel) ?_ rfl
    simp only [lossyTree, List.forall_mem_cons]
    exact ⟨rfl, rfl, rfl, rfl, rfl, by simp⟩
  refine ⟨hproject, frameProject_written hproject (by decide +kernel) (by decide +kernel), ?_⟩
  exact hproject.entries_ofEntries hsound (by decide +kernel)
    (Archive.returned_of_fits ⟨by decide +kernel, by decide +kernel, by decide +kernel⟩)

/-- The number of files that were reported by an unpacking. -/
def filesReported : Except Failure Unpacked → Option Nat
  | .ok (.installed installed) => some installed.report.files.length
  | _ => none

/-- Both files are installed, and one is unpacked. -/
lemma lossyWorld_reports :
    (frameInstall lossyWorld).1.toOption.map (fun done => done.report.files.length) = some 2 ∧
      filesReported (frameUnpack lossyWorld lossyEntries "staging").1 = some 1 := by
  rw [frameUnpack, unpack, lossyWorld_bundled.2.2]
  decide +kernel

end Pack

/-- Projects are installed whose bundles are not unpacked to the same.  By way of a directory that
is itself reached by a path short enough a bundle cannot be unpacked at all, and when it is staged
where the output goes, it leaves more there.  Of two files that are listed by one path a bundle
holds one, so fewer files are reported. -/
theorem unpacking_differs :
    (∃ bundled w₁, (Pack.bundle Pack.frameProject).exec Pack.plainWorld = (.ok bundled, w₁) ∧
      w₁.tree.read bundled.path = .ok (Archive.ofEntries Pack.plainEntries)) ∧
    (∃ installed, (Pack.frameInstall Pack.plainWorld).1 = .ok installed) ∧
    (∃ e, (Pack.frameUnpack Pack.plainWorld Pack.plainEntries
      (Pack.nestedDirectory 16 254)).1 = .error e) ∧
    (∃ unpacked, (Pack.frameUnpack Pack.plainWorld Pack.plainEntries "out").1 = .ok unpacked) ∧
    (Pack.frameInstall Pack.plainWorld).2.tree.content? ["out", "rocket.config.json5"] = none ∧
    (Pack.frameUnpack Pack.plainWorld Pack.plainEntries "out").2.tree.content?
      ["out", "rocket.config.json5"] = some "{}\n".toUTF8 ∧
    (∃ bundled w₁, (Pack.bundle Pack.frameProject).exec Pack.lossyWorld = (.ok bundled, w₁) ∧
      w₁.tree.read bundled.path = .ok (Archive.ofEntries Pack.lossyEntries)) ∧
    (Pack.frameInstall Pack.lossyWorld).1.toOption.map (fun done => done.report.files.length) =
      some 2 ∧
    Pack.filesReported (Pack.frameUnpack Pack.lossyWorld Pack.lossyEntries "staging").1 = some 1 := by
  have hread : ∀ {w : World Unit} {entries : Dict ByteArray} {bundled : Bundled} {w₁ : World Unit},
      Pack.Bundles w.tree Pack.frameProject Pack.emptyManifest entries →
      (Pack.bundle Pack.frameProject).exec w = (.ok bundled, w₁) →
      w₁.tree.read bundled.path = .ok (Archive.ofEntries entries) := by
    intro w entries bundled w₁ hproject hbundle
    obtain ⟨manifest, entries', hsame, -, hwritten⟩ := Pack.bundle_ok hbundle
    obtain ⟨rfl, rfl⟩ := hproject.unique hsame
    exact hwritten.read rfl
  obtain ⟨hplain, bundled, w₁, hbundle⟩ := Pack.plainWorld_bundled
  obtain ⟨hlossy, ⟨bundled', w₁', hbundle'⟩, -⟩ := Pack.lossyWorld_bundled
  obtain ⟨hinstalled, -, hnone⟩ := Pack.plainInstall_succeeds
  refine ⟨⟨bundled, w₁, hbundle, hread hplain hbundle⟩, hinstalled, ?_, ?_, hnone,
    Pack.plainUnpack_out.2, ⟨bundled', w₁', hbundle', hread hlossy hbundle'⟩,
    Pack.lossyWorld_reports⟩
  · rcases hx : Pack.frameUnpack Pack.plainWorld Pack.plainEntries (Pack.nestedDirectory 16 254) with
      ⟨e | unpacked, w'⟩
    · exact ⟨e, rfl⟩
    have hmanifest := hplain.mem_keys_manifest
    have hshort := Pack.unpack_size Pack.plainEntries_read hmanifest hx hmanifest
    have hname : Pack.manifestName.utf8ByteSize = 19 := rfl
    have hlength := Path.length_toList_le (Pack.nestedDirectory 16 254)
    rw [Pack.length_nestedDirectory] at hlength
    have hjoin := Path.utf8ByteSize_le_join (Pack.nestedDirectory 16 254)
      Pack.isFilePath_manifest.isAbsolute
    have hlimit : FileTree.pathLimit = 4096 := rfl
    omega
  · obtain ⟨unpacked, hunpacked⟩ := Option.isSome_iff_exists.1 Pack.plainUnpack_out.1
    exact ⟨unpacked, Result.toOption_eq_some.1 hunpacked⟩

end ConfigPack
