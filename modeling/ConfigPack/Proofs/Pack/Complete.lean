import ConfigPack.Proofs.Archive.Roundtrip
import ConfigPack.Proofs.FileTree.Again
import ConfigPack.Proofs.Pack.Portable

/-!
# Bundles are complete

A bundle holds the manifest, every file of the frame that is listed and every fuel that the manifest
refers to, and nothing else (`IsComplete`).  A file of the frame is held under its own name exactly
when that name is a text.  The archive that is written gives all entries back exactly when no name
has a backslash.
-/

namespace ConfigPack

namespace Pack

variable {σ : Type} {t : FileTree} {project : BundleSettings} {manifest : Manifest}
  {document : Json} {entries : Dict ByteArray}

/-- The manifest that a project is bundled with and the entries of its archive. -/
structure Bundles (tree : FileTree) (project : BundleSettings) (manifest : Manifest)
    (entries : Dict ByteArray) : Prop where
  loaded : ∃ path, manifestPath tree project = .ok path ∧ Manifest.load tree path = .ok manifest
  entries : bundleEntries tree project manifest.document = .ok entries

/-! ## What is written -/

/-- The path of an archive ends with a name. -/
lemma exists_endsIn_zip (output name : String) :
    ∃ above last, Path.EndsIn (Path.join output (name ++ ".zip")) above last ∧
      FileTree.IsEntryName last := by
  obtain ⟨above, last, hends⟩ :=
    Path.exists_endsIn_append output name ".zip" (by decide)
  have hlonger : ∀ short : String, short.utf8ByteSize < 4 → last ++ ".zip" ≠ short := by
    rintro _ hshort rfl
    have hending : ".zip".utf8ByteSize = 4 := by decide
    rw [String.utf8ByteSize_append, hending] at hshort
    omega
  exact ⟨above, _, hends, hlonger _ (by decide), hlonger _ (by decide), hlonger _ (by decide)⟩

/-- What is left when an archive is to be written: it stands at its path, unless nothing was to be
written. -/
structure Written (dryRun : Bool) (path : String) (archive : ByteArray) (t t' : FileTree) : Prop where
  dry : dryRun = true → t' = t
  read : dryRun = false → t'.read path = .ok archive

/-- Once an archive is written, its bytes are read back from its path. -/
lemma writeArchive_ok {directory output name verb : String} {archive : ByteArray} {dryRun : Bool}
    {w w' : World σ}
    (h : (writeArchive directory (Path.join output (name ++ ".zip")) archive dryRun verb).exec w =
      (.ok (), w')) :
    Written dryRun (Path.join output (name ++ ".zip")) archive w.tree w'.tree := by
  cases dryRun with
  | true => exact ⟨fun _ => (Work.Still.log _ _).tree h, (nomatch ·)⟩
  | false =>
    refine ⟨(nomatch ·), fun _ => ?_⟩
    obtain ⟨above, last, hends, hlast⟩ := exists_endsIn_zip output name
    -- whether a directory was made before or not, the archive is written last
    have hlogged : ∀ {text : String} {w₁ : World σ},
        (do
          Work.change (.io (Path.join output (name ++ ".zip"))) fun tree =>
            tree.write (Path.join output (name ++ ".zip")) archive
          Work.log .info text : Work σ PackError Unit).exec w₁ = (.ok (), w') →
        w'.tree.read (Path.join output (name ++ ".zip")) = .ok archive := by
      intro text w₁ h
      obtain ⟨_, w₂, hwrite, hlog⟩ := Work.exec_bind_ok.1 h
      obtain ⟨hwrite, -⟩ := Work.exec_change_ok hwrite
      rw [(Work.Still.log _ _).tree hlog]
      exact FileTree.read_of_write hends hlast hwrite
    simp only [writeArchive, Bool.false_eq_true, ↓reduceIte] at h
    split at h
    · obtain ⟨_, w₁, _, h⟩ := Work.exec_bind_ok.1 h
      exact hlogged h
    · exact hlogged h

/-- A bundle that is built is the archive of the entries of its project, and is written. -/
lemma bundle_ok {bundled : Bundled} {w w' : World σ}
    (h : (bundle project).exec w = (.ok bundled, w')) :
    ∃ manifest entries, Bundles w.tree project manifest entries ∧
      bundled.checksum = checksum .base64url (Archive.ofEntries entries) ∧
      Written project.dryRun bundled.path (Archive.ofEntries entries) w.tree w'.tree := by
  obtain ⟨path, w₁, hpath, h⟩ := Work.exec_bind_ok.1 h
  have h₁ := (Work.Still.look _ _).tree hpath
  obtain ⟨_, w₂, hlog, h⟩ := Work.exec_bind_ok.1 h
  have h₂ := (Work.Still.log _ _).tree hlog
  obtain ⟨manifest, w₃, hload, h⟩ := Work.exec_bind_ok.1 h
  have h₃ := (Work.Still.look _ _).tree hload
  obtain ⟨entries, w₄, hentries, h⟩ := Work.exec_bind_ok.1 h
  have h₄ := (Work.Still.look _ _).tree hentries
  obtain ⟨_, w₅, hlog', h⟩ := Work.exec_bind_ok.1 h
  have h₅ := (Work.Still.log _ _).tree hlog'
  obtain ⟨_, w₆, hwrite, h⟩ := Work.exec_bind_ok.1 h
  cases h
  rw [Work.exec_look, Prod.mk.injEq, Result.mapError_eq_ok] at hpath hload hentries
  rw [Work.exec_within, Prod.mk.injEq, Result.mapError_eq_ok] at hwrite
  have hwritten := writeArchive_ok (Prod.ext hwrite.1 hwrite.2)
  rw [h₅, h₄, h₃, h₂, h₁] at hwritten
  rw [h₂, h₁] at hload
  rw [h₃, h₂, h₁] at hentries
  exact ⟨manifest, entries, ⟨⟨path, hpath.1, hload.1⟩, hentries.1⟩, rfl, hwritten⟩

/-- The path of a file leads below the directory it is taken in. -/
lemma IsFilePath.isInside {name : String} (h : IsFilePath name) : Archive.IsInside name := by
  refine ⟨?_, h.hasNul, h.staysInside, fun hslash => ?_⟩
  · rintro rfl
    exact h.names_ne_nil Path.names_empty
  · obtain ⟨_, last, ⟨front, hsegments, _⟩, hlast⟩ := h.endsIn
    obtain ⟨before, rfl⟩ := Path.eq_append_slash hslash
    have hend : Path.segments (before ++ "/") = Path.segments before ++ [""] := by
      rw [← String.append_empty (s := before ++ "/"), Path.segments_slash, Path.segments_empty]
    obtain ⟨_, hempty⟩ := List.append_inj' (hend.symm.trans hsegments) rfl
    injection hempty with hempty
    exact hlast (.inl hempty.symm)

/-- A project is bundled with one manifest and one list of entries. -/
lemma Bundles.unique {manifest' : Manifest} {entries' : Dict ByteArray}
    (h : Bundles t project manifest entries) (h' : Bundles t project manifest' entries') :
    manifest = manifest' ∧ entries = entries' := by
  obtain ⟨path, hpath, hload⟩ := h.loaded
  obtain ⟨path', hpath', hload'⟩ := h'.loaded
  have hentries := h.entries
  rw [hpath] at hpath'
  cases hpath'
  rw [hload] at hload'
  cases hload'
  rw [h'.entries] at hentries
  cases hentries
  exact ⟨rfl, rfl⟩

/-- A project is bundled where its archive can be written. -/
lemma Bundles.exec_write {w : World σ} {made written : FileTree}
    (h : Bundles w.tree project manifest entries) (hdry : project.dryRun = false)
    (hdirectory : project.output.isEmpty = false)
    (hmake : w.tree.makeDirectories project.output = (made, .ok ()))
    (hwrite : made.write (Path.join project.output (project.name ++ ".zip"))
      (Archive.ofEntries entries) = .ok written) :
    ∃ bundled w', (bundle project).exec w = (.ok bundled, w') := by
  obtain ⟨path, hpath, hload⟩ := h.loaded
  have hentries := h.entries
  simp only [bundle, Work.exec_bind, Work.exec_look, hpath, hload, hentries, Except.mapError,
    Work.exec_log, Work.exec_within, writeArchive, hdry, Bool.false_eq_true, ↓reduceIte,
    hdirectory, Bool.not_false, Work.exec_changePartly, hmake, Work.exec_change, hwrite,
    Work.exec_pure]
  exact ⟨_, _, rfl⟩

/-- A bundle has a manifest. -/
lemma Bundles.mem_keys_manifest (h : Bundles t project manifest entries) :
    manifestName ∈ entries.keys :=
  Dict.mem_keys.2 ⟨_, (mem_bundleEntries h.entries _).2 .manifest⟩

/-- All entries of a bundle lead below the directory they are taken in. -/
lemma Bundles.isInside (h : Bundles t project manifest entries) (hsound : t.Sound) :
    ∀ name ∈ entries.keys, Archive.IsInside name := by
  intro name hname
  obtain ⟨data, he⟩ := Dict.mem_keys.1 hname
  exact (((mem_bundleEntries h.entries _).1 he).isFilePath hsound).isInside

/-- The archive of a project is read back. -/
lemma Bundles.entries_ofEntries (h : Bundles t project manifest entries) (hsound : t.Sound)
    (hback : ∀ name ∈ entries.keys, '\\' ∉ name.toList) (hreturned : Archive.Returned entries) :
    Archive.entries (Archive.ofEntries entries) = .ok entries :=
  Archive.entries_ofEntries hreturned (h.isInside hsound) hback

/-- The entries are the manifest, every file of the frame and every fuel that is referred to, each
with its content, and nothing else.  A file that is found in the frame is held by the text of its
path, and with its own content under its own path exactly when that is a text. -/
structure IsComplete (tree : FileTree) (project : BundleSettings) (document : Json)
    (entries : Dict ByteArray) : Prop where
  manifest : (manifestName, manifestContent document) ∈ entries.entries
  frame : ∀ frame, project.frame = some frame →
    ∃ files, Assembly.listFiles tree frame = .ok files ∧ ∀ file ∈ files,
      ∃ data, tree.read (Path.join frame file) = .ok data ∧
        (inside frameDirectory file, data) ∈ entries.entries
  found : ∀ frame, project.frame = some frame →
    ∃ found, Assembly.filesBelow tree Assembly.maxDepth frame [] = .ok found ∧ ∀ path ∈ found,
      inside frameDirectory (FileName.lossyPath path) ∈ entries.keys ∧
        ((∃ data, tree.readEntry (Path.join frame path) = .ok data ∧
            (inside frameDirectory path, data) ∈ entries.entries) ↔
          Path.hasNul path = false)
  fuel : ∀ name ∈ Fuel.referenced document,
    ∃ root content, project.fuels = some root ∧ Fuel.ofDirectory tree root name = .ok content ∧
      (inside fuelDirectory name, content.toUTF8) ∈ entries.entries
  only : ∀ e ∈ entries.entries, Holds tree project document e

/-- An entry of a file of the frame is one of those that are listed. -/
lemma Holds.file_of_frame {frame file : String} {files : List String} {data : ByteArray}
    (h : Holds t project document (inside frameDirectory file, data))
    (hframe : project.frame = some frame) (hfiles : Assembly.listFiles t frame = .ok files) :
    file ∈ files := by
  generalize hkey : inside frameDirectory file = key at h
  cases h with
  | manifest => exact absurd hkey.symm (manifestName_ne_frame file)
  | frame hframe' hfiles' hfile' =>
    rw [hframe] at hframe'
    cases hframe'
    rw [hfiles] at hfiles'
    cases hfiles'
    rwa [inside_inj hkey]
  | fuel => exact absurd hkey (inside_frame_ne_fuel file _)

/-- The entries of a bundle are complete. -/
lemma isComplete_of_bundleEntries (hsound : t.Sound)
    (h : bundleEntries t project document = .ok entries) :
    IsComplete t project document entries where
  manifest := (mem_bundleEntries h _).2 .manifest
  frame frame hframe := by
    obtain ⟨files, hfiles, hdata⟩ := frame_of_bundleEntries h hframe
    refine ⟨files, hfiles, fun file hfile => ?_⟩
    obtain ⟨data, hread⟩ := hdata file hfile
    exact ⟨data, hread, (mem_bundleEntries h _).2 (.frame hframe hfiles hfile hread)⟩
  found frame hframe := by
    obtain ⟨files, hfiles, hdata⟩ := frame_of_bundleEntries h hframe
    obtain ⟨hdirectory, found, hfound, hsame⟩ := Assembly.listFiles_eq_ok.1 hfiles
    refine ⟨found, hfound, fun path hpath => ?_⟩
    have hlisted : FileName.lossyPath path ∈ files := by
      rw [hsame, Assembly.mem_inOrder]
      exact List.mem_map_of_mem hpath
    obtain ⟨data, hread⟩ := hdata _ hlisted
    have hmem : (inside frameDirectory (FileName.lossyPath path), data) ∈ entries.entries :=
      (mem_bundleEntries h _).2 (.frame hframe hfiles hlisted hread)
    refine ⟨Dict.mem_keys.2 ⟨data, hmem⟩, fun ⟨own, _, hown⟩ => ?_, fun hnul => ?_⟩
    · -- what is held is listed, and only texts are listed
      have hfile := ((mem_bundleEntries h _).1 hown).file_of_frame hframe hfiles
      obtain ⟨_, _, hspelled⟩ := Assembly.listFiles_ok hsound hfiles
      obtain ⟨_, _, _, hnul, _⟩ := hspelled path hfile
      exact hnul
    · -- a path that is a text is listed as it is, so its own file was read
      obtain ⟨names, -, hentries, -, rfl⟩ := Assembly.filesBelow_mem hsound hfound path hpath
      rw [List.nil_append] at hnul hread hmem ⊢
      have hown : FileName.lossyPath (FileTree.spelled names) = FileTree.spelled names := by
        rw [FileName.lossyPath, hnul]
        rfl
      rw [hown] at hread hmem
      refine ⟨data, ?_, hmem⟩
      rw [FileTree.readEntry_eq, hread]
      rw [Path.hasNul_join hentries.isAbsolute, hdirectory, hnul]
      rfl
  fuel name hname := by
    obtain ⟨root, content, hroot, hcontent⟩ := fuel_of_bundleEntries h hname
    exact ⟨root, content, hroot, hcontent,
      (mem_bundleEntries h _).2 (.fuel hroot hname hcontent)⟩
  only e he := (mem_bundleEntries h e).1 he

end Pack

/-- The archive of a bundle holds the manifest, every file of the frame and every fuel, and nothing
else; unless nothing was to be written it stands at the path of the bundle.  It gives all of them
back exactly when no name has a backslash: a name with one inside makes the whole archive refused,
and otherwise the entries whose names end in one are lost. -/
theorem bundled_entries_returned {σ : Type} {project : BundleSettings} {bundled : Bundled}
    {w w' : World σ} (hsound : w.tree.Sound)
    (hbundle : (Pack.bundle project).exec w = (.ok bundled, w')) :
    ∃ manifest entries, Pack.Bundles w.tree project manifest entries ∧
      bundled.checksum = checksum .base64url (Archive.ofEntries entries) ∧
      (project.dryRun = true → w'.tree = w.tree) ∧
      (project.dryRun = false → w'.tree.read bundled.path = .ok (Archive.ofEntries entries)) ∧
      Pack.IsComplete w.tree project manifest.document entries ∧
      (Archive.Returned entries →
        (Archive.entries (Archive.ofEntries entries) = .ok entries ↔
          ∀ name ∈ entries.keys, '\\' ∉ name.toList) ∧
        ((∃ name ∈ entries.keys, Archive.hasBackslashInside name = true) →
          ∃ name ∈ entries.keys, Archive.hasBackslashInside name = true ∧
            Archive.entries (Archive.ofEntries entries) = .error (.escapes name)) ∧
        ((∀ name ∈ entries.keys, Archive.hasBackslashInside name = false) →
          ∃ kept, Archive.entries (Archive.ofEntries entries) = .ok kept ∧
            ∀ e, e ∈ kept.entries ↔
              e ∈ entries.entries ∧ Archive.endsInBackslash e.1 = false)) := by
  obtain ⟨manifest, entries, hproject, hchecksum, hwritten⟩ := Pack.bundle_ok hbundle
  have hinside := hproject.isInside hsound
  exact ⟨manifest, entries, hproject, hchecksum, hwritten.dry, hwritten.read,
    Pack.isComplete_of_bundleEntries hsound hproject.entries, fun hreturned =>
      ⟨Archive.entries_ofEntries_iff hreturned hinside,
        Archive.entries_ofEntries_refused hreturned hinside,
        Archive.entries_ofEntries_dropped hreturned hinside⟩⟩

namespace Pack

/-- A project with a frame. -/
def frameProject : BundleSettings := ⟨some "frame", none, none, "dist", "pack", false⟩

/-- A manifest that declares nothing. -/
def emptyManifest : Manifest := ⟨[], [], [], [], .object []⟩

/-- The manifest of an empty document. -/
lemma manifestContent_empty : manifestContent (.object []) = "{}\n".toUTF8 := by
  have hindented : (Json.object []).indented ++ "\n" = "{}\n" := by decide +kernel
  rw [manifestContent, hindented]

/-- An empty document is a manifest. -/
lemma ofJson_empty : Manifest.ofJson (.object []) = .ok emptyManifest := rfl

/-- The project is bundled where its manifest declares nothing. -/
lemma frameProject_bundles {path : String} (hpath : manifestPath t frameProject = .ok path)
    (hextension : Path.lowerExtension path = "json") (htext : t.readText path = .ok "{}")
    (hentries : bundleEntries t frameProject (.object []) = .ok entries) :
    Bundles t frameProject emptyManifest entries := by
  have hparse : Json.parse "{}" = .ok (.object []) := by rfl
  refine ⟨⟨path, hpath, ?_⟩, hentries⟩
  rw [Manifest.load, Manifest.loadDocument, htext]
  simp only [Except.mapError, bind, Except.bind, Document.parse, hextension, hparse, ofJson_empty]

/-- Its archive can be written where another file can stand at its place. -/
lemma frameProject_written {manifest : Manifest} {w : World σ}
    (h : Bundles w.tree frameProject manifest entries)
    (hmake : (w.tree.makeDirectories "dist").2 = .ok ())
    (hwrite : ((w.tree.makeDirectories "dist").1.write "dist/pack.zip" .empty).isOk = true) :
    ∃ bundled w', (bundle frameProject).exec w = (.ok bundled, w') := by
  have hpath : Path.join frameProject.output (frameProject.name ++ ".zip") = "dist/pack.zip" := by
    decide +kernel
  obtain ⟨written, hwrite⟩ := FileTree.exists_write hwrite (Archive.ofEntries entries)
  exact h.exec_write rfl (by decide) (Prod.ext rfl hmake) (hpath ▸ hwrite)

/-- A frame with a file that has a backslash in its name. -/
def backslashTree : FileTree :=
  ⟨[(["rocket.config.json"], .file "{}".toUTF8 FileTree.newFileMode), (["frame"], .directory),
    (["frame", "a\\b"], .file "x".toUTF8 FileTree.newFileMode)], []⟩

/-- The entries of its bundle. -/
def backslashEntries : Dict ByteArray :=
  ⟨[("frame/a\\b", "x".toUTF8), ("rocket.config.json5", "{}\n".toUTF8)], by decide⟩

/-- The frame with a backslash in a name is bundled. -/
lemma backslashTree_bundles :
    Bundles backslashTree frameProject emptyManifest backslashEntries := by
  have hpath : manifestPath backslashTree frameProject = .ok "./rocket.config.json" := by
    decide +kernel
  refine frameProject_bundles hpath (by decide +kernel) (by decide +kernel)
    (Result.toOption_eq_some.1 ?_)
  rw [bundleEntries, manifestContent_empty]
  decide +kernel

end Pack

/-- A name with a backslash is bundled, and the archive that is written is refused. -/
theorem backslash_bundle_is_refused :
    ∃ bundled w', (Pack.bundle Pack.frameProject).exec
        (⟨⟨#[], ()⟩, Pack.backslashTree, .calm⟩ : World Unit) = (.ok bundled, w') ∧
      bundled.checksum = checksum .base64url (Archive.ofEntries Pack.backslashEntries) ∧
      w'.tree.read bundled.path = .ok (Archive.ofEntries Pack.backslashEntries) ∧
      Archive.entries (Archive.ofEntries Pack.backslashEntries) =
        .error (.escapes "frame/a\\b") := by
  have hproject := Pack.backslashTree_bundles
  obtain ⟨bundled, w', hbundle⟩ := Pack.frameProject_written
    (w := (⟨⟨#[], ()⟩, Pack.backslashTree, .calm⟩ : World Unit)) hproject
    (by decide +kernel) (by decide +kernel)
  have hsound : Pack.backslashTree.Sound := by
    refine FileTree.sound_of_nodes (by decide) ?_ rfl
    simp only [Pack.backslashTree, List.forall_mem_cons]
    exact ⟨rfl, rfl, rfl, by simp⟩
  obtain ⟨manifest, entries, hsame, hchecksum, -, hread, -, hreturned⟩ :=
    bundled_entries_returned hsound hbundle
  obtain ⟨rfl, rfl⟩ := hproject.unique hsame
  have hfits : Archive.Fits Pack.backslashEntries := ⟨by decide, by decide, by decide⟩
  obtain ⟨-, hrefused, -⟩ := hreturned (Archive.returned_of_fits hfits)
  obtain ⟨name, hname, hback, herror⟩ := hrefused ⟨"frame/a\\b", by decide, by decide⟩
  have hkeys : Pack.backslashEntries.keys = ["frame/a\\b", "rocket.config.json5"] := rfl
  rw [hkeys] at hname
  rcases List.mem_cons.1 hname with rfl | hname
  · exact ⟨bundled, w', hbundle, hchecksum, hread rfl, herror⟩
  · rw [List.mem_singleton.1 hname] at hback
    exact absurd hback (by decide)

end ConfigPack
