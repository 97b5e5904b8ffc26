import ConfigPack.Pack.Selection
import ConfigPack.Proofs.Alike
import ConfigPack.Proofs.Assembly.Census
import ConfigPack.Proofs.Pack.Complete
import ConfigPack.Proofs.Utf8

/-!
# Directories in any order

A directory may give its names in any order.  The files of a frame are sorted, so neither the
candidates of an assembly nor the entries of a bundle nor a selection depends on that order
(`SameNodes.sameChoices`).  Main statement: when a listing gives all files
(`listFiles_complete_iff`).
-/

namespace ConfigPack

variable {σ : Type} {t t' : FileTree}

/-- What is listed, taken, bundled and selected in one tree is so in another. -/
structure SameChoices (t t' : FileTree) : Prop where
  files : ∀ directory, Assembly.listFiles t' directory = Assembly.listFiles t directory
  candidates : ∀ environment frame,
    Assembly.candidates t' environment frame = Assembly.candidates t environment frame
  taken : ∀ {σ : Type} (environment : Environment) (frame : Option String) (bus : Bus σ)
    {w w' : World σ}, w.tree = t → w'.tree = t' → w.journal.host = w'.journal.host →
      ((Assembly.choose environment frame bus).exec w).1 =
        ((Assembly.choose environment frame bus).exec w').1
  bundled : ∀ project manifest entries,
    Pack.Bundles t' project manifest entries ↔ Pack.Bundles t project manifest entries
  selected : ∀ {σ : Type} (root : String) (included excluded : List String) {w w' : World σ},
    w.tree = t → w'.tree = t' → w.journal.host = w'.journal.host →
      ((Pack.selectFiles root included excluded).exec w).1 =
        ((Pack.selectFiles root included excluded).exec w').1

open Assembly

namespace FileTree.SameNodes

/-! ## Candidates -/

/-- The jobs of a frame do not depend on the order in which a directory is listed. -/
lemma frameJobsIn (h : t.SameNodes t') (frame : Option String) :
    Assembly.frameJobsIn t' frame = Assembly.frameJobsIn t frame := by
  cases frame with
  | none => rfl
  | some frame =>
    rw [Assembly.frameJobsIn, Assembly.frameJobsIn, h.isDirectory, listFiles_sameNodes h]

/-- Neither do the candidates of an assembly. -/
lemma candidates (h : t.SameNodes t') (environment : Environment) (frame : Option String) :
    Assembly.candidates t' environment frame = Assembly.candidates t environment frame := by
  rw [Assembly.candidates, Assembly.candidates, h.frameJobsIn]

end FileTree.SameNodes

namespace Assembly

variable {environment : Environment} {bus : Bus σ}

/-- The jobs of a frame are found alike in trees with the same nodes. -/
lemma frameJobs_alike (frame : Option String) :
    Work.Alike False FileTree.SameNodes (frameJobs frame : Work σ AssemblyError (List Job))
      (frameJobs frame) := by
  intro w w' hbeside
  obtain ⟨w₁, hexec, htree, hhost, _⟩ := frameJobs_exec frame w
  obtain ⟨w₁', hexec', htree', hhost', _⟩ := frameJobs_exec frame w'
  rw [hexec, hexec']
  refine ⟨hbeside.tree.frameJobsIn frame ▸ rfl, ?_, False.elim, ?_⟩
  · rw [hhost, hhost', hbeside.host]
  · rw [htree, htree']
    exact hbeside.tree

/-- A candidate is decided without a look at the files. -/
lemma selectOne_alike {R : FileTree → FileTree → Prop} (job : Job) :
    Work.Alike False R (selectOne environment bus job) (selectOne environment bus job) := by
  refine .bind (.withHost _ _) fun candidate => ?_
  split
  · exact .pure _
  · exact .bind (.log _ _ _ _) fun _ => .bind (.record _ _ _) fun _ => .pure _

/-- Listeners hear of the same candidates. -/
lemma choose_alike (frame : Option String) :
    Work.Alike False FileTree.SameNodes (choose environment frame bus)
      (choose environment frame bus) := by
  refine .bind (frameJobs_alike frame) fun framed => .bind (.log _ _ _ _) fun _ => ?_
  refine .bind (.mapM ?_) fun _ => .pure _
  exact List.forall₂_same.2 fun job _ => selectOne_alike job

end Assembly

/-! ## Bundles -/

namespace Pack

/-- The manifest is found at the same path. -/
lemma manifestPath_sameNodes (h : t.SameNodes t') (project : BundleSettings) :
    manifestPath t' project = manifestPath t project := by
  simp only [manifestPath, Manifest.find, h.isFile]

/-- It is loaded to the same. -/
lemma load_sameNodes (h : t.SameNodes t') (path : String) :
    Manifest.load t' path = Manifest.load t path := by
  simp only [Manifest.load, Manifest.loadDocument, h.readText]

/-- A directory holds the same fuels. -/
lemma ofDirectory_sameNodes (h : t.SameNodes t') (root : String) :
    Fuel.ofDirectory t' root = Fuel.ofDirectory t root := by
  funext name
  simp only [Fuel.ofDirectory, h.canonical, FileTree.readTextFrom, h.readTextAt]

/-- A bundle has the same entries. -/
lemma bundleEntries_sameNodes (h : t.SameNodes t') (project : BundleSettings) (document : Json) :
    bundleEntries t' project document = bundleEntries t project document := by
  simp only [bundleEntries, addFrame, addFuels, listFiles_sameNodes h, h.read,
    ofDirectory_sameNodes h]

/-- A project is bundled with the same manifest and the same entries. -/
lemma Bundles.of_sameNodes {project : BundleSettings} {manifest : Manifest}
    {entries : Dict ByteArray} (hbundles : Bundles t project manifest entries)
    (h : t.SameNodes t') : Bundles t' project manifest entries := by
  obtain ⟨path, hpath, hload⟩ := hbundles.loaded
  refine ⟨⟨path, ?_, ?_⟩, ?_⟩
  · rw [manifestPath_sameNodes h, hpath]
  · rw [load_sameNodes h, hload]
  · rw [bundleEntries_sameNodes h, hbundles.entries]

/-! ## Selections -/

/-- Patterns are read without a look at the files. -/
lemma readGlobs_alike {R : FileTree → FileTree → Prop} (patterns : List String) :
    Work.Alike False R (readGlobs patterns : Work σ Failure _) (readGlobs patterns) :=
  .bind (.liftM _) fun _ => .bind (.forM fun _ _ => .log _ _ _ _) fun _ => .pure _

/-- The same files are selected for a plain archive. -/
lemma selectFiles_alike (root : String) (included excluded : List String) :
    Work.Alike False FileTree.SameNodes (selectFiles root included excluded : Work σ Failure _)
      (selectFiles root included excluded) := by
  refine .bind (readGlobs_alike included) fun globs => .bind (readGlobs_alike excluded) fun out => ?_
  refine .bind (.look _ fun t t' h => (listFiles_sameNodes h root).symm) fun files => ?_
  dsimp only
  split
  · exact .bind (.throw _) fun _ => .pure _
  · exact .pure _

end Pack

/-- The order in which directories give their names does not show in what is chosen. -/
lemma FileTree.SameNodes.sameChoices (h : t.SameNodes t') : SameChoices t t' where
  files := listFiles_sameNodes h
  candidates := h.candidates
  taken := by
    rintro σ environment frame bus w w' rfl rfl hhost
    exact (choose_alike frame w w' ⟨hhost, False.elim, h⟩).1
  bundled := fun _ _ _ => ⟨fun hbundles => hbundles.of_sameNodes h.symm,
    fun hbundles => hbundles.of_sameNodes h⟩
  selected := by
    rintro σ root included excluded w w' rfl rfl hhost
    exact (Pack.selectFiles_alike root included excluded w w' ⟨hhost, False.elim, h⟩).1

/-! ## All files -/

namespace Assembly

variable {directory : String} {base : Place}

/-- A listing gives, sorted by their bytes and each once, the paths of what stands in the
directories whose own paths are not too long.  These are the files at every depth exactly when no
directory is so far down that its path is too long.  All this does not depend on the order in which
directories give their names, whichever it may be. -/
theorem listFiles_complete_iff (hplain : t.Plain) (hlocate : t.locate directory = .ok base)
    (hbase : t.node? base = some .directory) :
    ∃ found files,
      filesBelow t maxDepth directory [] = .ok found ∧
      listFiles t directory = .ok files ∧ files.Perm found ∧
      files.Pairwise (fun file next => file.toUTF8.data.toList < next.toUTF8.data.toList) ∧
      (∀ file, file ∈ files ↔
        ∃ names, Listed t directory base names ∧ file = FileTree.spelled names) ∧
      ((∀ file, file ∈ files ↔ ∃ names, IsFile t base names ∧ file = FileTree.spelled names) ↔
        ∀ names, t.node? (base ++ names) = some .directory → Near directory names) ∧
      (∀ order : Place → List String, (∀ place, (order place).Perm (t.namesIn place)) →
        ∃ t', t.SameNodes t' ∧ ∀ place, t'.namesIn place = order place) ∧
      ∀ t', t.SameNodes t' → SameChoices t t' := by
  have hsound := hplain.toSound
  have hnear : Near directory [] := (FileTree.walks_of_locate hlocate).1.size
  have htop : t.node? (base ++ []) = some .directory := by rwa [List.append_nil]
  obtain ⟨found, hfound, hnodup, hmem⟩ :=
    filesBelow_ok hplain hlocate hbase maxDepth htop hnear (Nat.le_add_right _ _)
  have hlisted : ∀ file, file ∈ inOrder found ↔
      ∃ names, Listed t directory base names ∧ file = FileTree.spelled names := by
    intro file
    rw [mem_inOrder, hmem, ListedBelow]
    simp only [List.nil_prefix, true_and]
  -- in a plain tree every path is a text, so what is found is listed as it is
  have htexts : ∀ file ∈ found, Path.hasNul file = false := by
    intro file hfile
    obtain ⟨names, _, hnames, rfl⟩ := (hmem file).1 hfile
    exact hplain.hasNul_spelled hnames.stands
  have hsorted : (inOrder found).Pairwise (· < ·) := by
    have hdifferent := (perm_inOrder found).nodup_iff.2 hnodup
    exact (pairwise_inOrder found).imp₂ (fun _ _ => Std.lt_of_le_of_ne) hdifferent
  refine ⟨found, inOrder found, hfound, ?_, perm_inOrder found, hsorted.imp Utf8.toUTF8_lt, hlisted,
    ?_, fun _ => FileTree.exists_reordered, fun _ h => h.sameChoices⟩
  · have hnul := (FileTree.reaches_of_locate hlocate).hasNul
    exact listFiles_eq_ok.2 ⟨hnul, found, hfound, by rw [map_lossyPath htexts]⟩
  · rw [← listed_iff_isFile hplain hlocate hbase]
    simp only [hlisted]
    exact forall_spelled_iff (fun _ h => hsound.areEntries h.stands) fun _ h => h.areEntries hsound

/-- A file two directories down. -/
def sampleTree : FileTree where
  nodes := [(["frame"], .directory), (["frame", "sub"], .directory),
    (["frame", "sub", "x.txt"], .file "x".toUTF8 FileTree.newFileMode)]
  workingDirectory := []

/-- The frame by way of some dots. -/
def dottedFrame : Nat → String
  | 0 => "frame"
  | dots + 1 => Path.join "." (dottedFrame dots)

/-- A frame by way of dots is relative. -/
lemma dottedFrame_rel (dots : Nat) : Path.isAbsolute (dottedFrame dots) = false := by
  induction dots with
  | zero => decide
  | succ dots ih =>
    rw [dottedFrame, Path.isAbsolute_join ih]
    decide

/-- Dots are no names. -/
lemma names_dottedFrame (dots : Nat) : Path.names (dottedFrame dots) = ["frame"] := by
  induction dots with
  | zero => decide
  | succ dots ih =>
    rw [dottedFrame, Path.names_join (dottedFrame_rel dots), ih]
    decide

/-- There is no null character in it. -/
lemma hasNul_dottedFrame (dots : Nat) : Path.hasNul (dottedFrame dots) = false := by
  induction dots with
  | zero => decide
  | succ dots ih =>
    rw [dottedFrame, Path.hasNul_join (dottedFrame_rel dots), ih]
    decide

/-- Each dot takes two bytes, and the frame five. -/
lemma size_dottedFrame (dots : Nat) : (dottedFrame dots).utf8ByteSize = 2 * dots + 5 := by
  induction dots with
  | zero => decide
  | succ dots ih =>
    have hjoin : Path.join "." (dottedFrame dots) = "." ++ "/" ++ dottedFrame dots := by
      simp [Path.join, dottedFrame_rel]
    have hdot : ("." ++ "/").utf8ByteSize = 2 := by decide
    rw [dottedFrame, hjoin, String.utf8ByteSize_append, ih, hdot]
    omega

/-- The tree is well formed and has no links. -/
lemma sampleTree_plain : sampleTree.Plain where
  toSound := by
    refine FileTree.sound_of_nodes (by decide) ?_ rfl
    simp only [sampleTree, List.forall_mem_cons]
    exact ⟨rfl, rfl, rfl, by simp⟩
  linkFree := FileTree.linkFree_of_nodes (by simp [sampleTree]) []
  taken := by decide +kernel

/-- The frame is found by way of as many dots as a path has room for. -/
lemma sampleTree_locate (dots : Nat) (hdots : 2 * dots + 5 < FileTree.pathLimit) :
    sampleTree.locate (dottedFrame dots) = .ok ["frame"] := by
  have hsize := size_dottedFrame dots
  refine FileTree.Enters.locate ?_ ⟨?_, hasNul_dottedFrame dots, hsize ▸ hdots⟩
  · rw [names_dottedFrame]
    simp only [FileTree.start, dottedFrame_rel]
    exact .down (by decide) (by decide) rfl .here
  · intro hempty
    rw [hempty, String.utf8ByteSize_empty] at hsize
    omega

/-- What stands below the frame. -/
lemma sampleTree_names {names : List String} (h : sampleTree.node? (["frame"] ++ names) ≠ none) :
    names = [] ∨ names = ["sub"] ∨ names = ["sub", "x.txt"] := by
  obtain ⟨node, hnode⟩ := Option.ne_none_iff_exists'.1 h
  have hmem := List.mem_map_of_mem (f := Prod.fst) (FileTree.mem_nodes (by simp) hnode)
  simpa [sampleTree] using hmem

section

variable {dots : Nat} (hnear : 2 * dots + 5 < FileTree.pathLimit)
  (hfar : FileTree.pathLimit ≤ 2 * dots + 8)

include hfar in
/-- One more name makes the path of the frame too long. -/
lemma not_near_sub : ¬ Near (dottedFrame dots) ["sub"] := by
  have hrel : Path.isAbsolute "sub" = false := by decide
  have hlonger := Path.utf8ByteSize_le_join (dottedFrame dots) hrel
  have hsub : "sub".utf8ByteSize = 3 := by decide
  rw [size_dottedFrame, hsub] at hlonger
  exact Nat.not_lt.2 (hfar.trans hlonger)

include hnear hfar in
/-- The directory in the frame is all that is listed. -/
lemma listed_dottedFrame {names : List String} :
    Listed sampleTree (dottedFrame dots) ["frame"] names ↔ names = ["sub"] := by
  have hfar := not_near_sub hfar
  constructor
  · intro h
    obtain ⟨above, name, hnames, habove⟩ := h.below
    rcases sampleTree_names h.stands with rfl | rfl | rfl
    · simp at hnames
    · rfl
    · have hsplit : ["sub"] ++ ["x.txt"] = above ++ [name] := hnames
      rw [← (List.append_inj' hsplit rfl).1] at habove
      exact absurd habove hfar
  · rintro rfl
    exact ⟨by decide, ⟨[], "sub", rfl, (size_dottedFrame dots).trans_lt hnear⟩, fun _ => hfar⟩

end

/-- By a path that is almost too long the directory in the frame is taken for a file, and the file
in it is missed; by a short path it is found. -/
theorem dotted_frame_is_cut_off :
    sampleTree.Plain ∧ sampleTree.locate (dottedFrame 2044) = .ok ["frame"] ∧
      sampleTree.node? ["frame"] = some .directory ∧
      listFiles sampleTree (dottedFrame 2044) = .ok ["sub"] ∧
      (listFiles sampleTree "frame").toOption = some ["sub/x.txt"] := by
  have hlocate := sampleTree_locate 2044 (by decide)
  obtain ⟨_, files, -, hfiles, -, hsorted, hlisted, -⟩ :=
    listFiles_complete_iff sampleTree_plain hlocate rfl
  refine ⟨sampleTree_plain, hlocate, rfl, ?_, by decide +kernel⟩
  have hsub : ∀ names, Listed sampleTree (dottedFrame 2044) ["frame"] names ↔ names = ["sub"] :=
    fun _ => listed_dottedFrame (by decide) (by decide)
  have hone : files = ["sub"] := by
    refine List.Perm.eq_singleton ((List.perm_ext_iff_of_nodup ?_ (List.nodup_singleton _)).2
      fun file => by simp [hlisted, hsub, FileTree.spelled])
    refine hsorted.imp fun {file next} hlt hsame => ?_
    exact List.lt_irrefl _ (hsame ▸ hlt)
  rw [hfiles, hone]

end Assembly

end ConfigPack
