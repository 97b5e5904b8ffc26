import ConfigPack.Proofs.Pack.Bundle
import ConfigPack.Proofs.Pack.Frame

/-!
# Bundles can be staged

The names under which a bundle holds its entries are paths of files, and no entry is in the way of
another: in a sound tree no path to a file goes on to another file, so neither do the names of two
files of one frame or of two fuels.
-/

namespace ConfigPack.Pack

variable {tree : FileTree} {project : BundleSettings} {document : Json} {entries : Dict ByteArray}

/-! ## Names of entries -/

/-- What is read is the data of a file that the path leads to. -/
lemma read_eq_ok {path : String} {data : ByteArray} (h : tree.read path = .ok data) :
    ∃ place mode, tree.locate path = .ok place ∧ tree.node? place = some (.file data mode) := by
  obtain ⟨place, hlocate, h⟩ := Result.bind_eq_ok.1 h
  rw [FileTree.readAt] at h
  split at h
  next mode hnode =>
    cases h
    exact ⟨place, mode, hlocate, hnode⟩
  all_goals cases h

/-- The name of a file in a directory is a path of a file in any directory. -/
lemma isFilePath_of_reaches (hsound : tree.Sound) {root name : String} {place : Place}
    {data : ByteArray} {mode : Nat} (hstays : Path.staysInside name = true)
    (hreaches : tree.Reaches (Path.join root name) place)
    (hfile : tree.node? place = some (.file data mode)) : IsFilePath name := by
  obtain ⟨hrel, hup⟩ := Path.staysInside_iff.1 hstays
  have hnul := hreaches.hasNul
  rw [Path.hasNul_join hrel, Bool.or_eq_false_iff] at hnul
  refine ⟨hstays, hnul.2, fun part hpart => ?_, ?_⟩
  · obtain ⟨_, hne, hdot⟩ := Path.mem_proper.1 hpart
    have hnotup : part ≠ ".." := fun e => hup (e ▸ hpart)
    have hmem : part ∈ Path.proper (FileTree.steps (Path.join root name)) := by
      rw [Path.proper_steps, Path.names_join hrel]
      exact List.mem_append_right _ hpart
    exact ⟨⟨hne, hdot, hnotup⟩, (hreaches.walks.size rfl part hmem).resolve_left hnotup⟩
  · obtain ⟨_, last, ⟨front, hfront, _⟩, hlast⟩ := hsound.endsIn hreaches hfile
    obtain ⟨before, hbefore, _⟩ := Path.segments_join root hrel
    have hsegments := hbefore.symm.trans hfront
    rw [← List.dropLast_concat_getLast (Path.segments_ne_nil name), ← List.append_assoc] at hsegments
    obtain ⟨_, hsame⟩ := List.append_inj' hsegments rfl
    refine ⟨_, last, ⟨(Path.segments name).dropLast, ?_, rfl⟩, hlast.not_trivial⟩
    rw [← hsame, List.dropLast_concat_getLast]

/-- A fuel of a directory is the content of a file in it. -/
lemma file_of_ofDirectory {root name content : String}
    (h : Fuel.ofDirectory tree root name = .ok content) :
    Path.staysInside name = true ∧ ∃ place mode, tree.Reaches (Path.join root name) place ∧
      tree.node? place = some (.file content.toUTF8 mode) := by
  obtain ⟨_, hstays, place, _, mode, hplace, _, _, _, hnode⟩ := Fuel.ofDirectory_eq_ok.1 h
  exact ⟨hstays, place, mode, FileTree.reaches_of_canonical hplace, hnode⟩

variable {directory name : String}

/-- A directory of a pack: a single name. -/
structure IsDirectoryName (directory : String) : Prop where
  areNames : FileTree.AreNames [directory]
  areEntries : FileTree.AreEntries [directory]
  hasNul : Path.hasNul directory = false

/-- The directory of the frame is a single name. -/
lemma frameDirectory_isName : IsDirectoryName frameDirectory := by
  refine ⟨fun name hname => ?_, areEntries_frame, by decide⟩
  rw [List.mem_singleton.1 hname]
  exact ⟨⟨by decide, by decide, by decide⟩, by decide +kernel⟩

/-- So is the directory of the fuels. -/
lemma fuelDirectory_isName : IsDirectoryName fuelDirectory := by
  refine ⟨fun name hname => ?_, fun name hname => ?_, by decide⟩
  all_goals rw [List.mem_singleton.1 hname]
  · exact ⟨⟨by decide, by decide, by decide⟩, by decide +kernel⟩
  · exact ⟨⟨by decide, by decide, by decide⟩, by decide⟩

/-- A name spells itself. -/
lemma spelled_singleton (name : String) : FileTree.spelled [name] = name := by
  simp [FileTree.spelled]

/-- The names of such a directory. -/
lemma IsDirectoryName.names (h : IsDirectoryName directory) : Path.names directory = [directory] := by
  rw [← spelled_singleton directory, h.areEntries.names_spelled, spelled_singleton]

/-- A name in such a directory is the path that joins both. -/
lemma IsDirectoryName.inside_eq (h : IsDirectoryName directory)
    (hrel : Path.isAbsolute name = false) : inside directory name = Path.join directory name := by
  have hne := h.areEntries.spelled_ne_empty (by simp)
  have hlast := h.areEntries.getLast?
  rw [spelled_singleton] at hne hlast
  simp [Path.join, hrel, hne, hlast, inside]

/-- Its names are the directory and the names of the file. -/
lemma IsFilePath.names_inside (h : IsFilePath name) (hd : IsDirectoryName directory) :
    Path.names (inside directory name) = directory :: Path.names name := by
  rw [hd.inside_eq h.isAbsolute, Path.names_join h.isAbsolute, hd.names]
  rfl

/-- The path of a file in such a directory is the path of a file. -/
lemma IsFilePath.inside (h : IsFilePath name) (hd : IsDirectoryName directory) :
    IsFilePath (inside directory name) := by
  have hnames := h.names_inside hd
  obtain ⟨hentry, _⟩ := hd.areEntries directory (by simp)
  have hrel := hd.areEntries.isAbsolute
  rw [spelled_singleton] at hrel
  refine ⟨Path.staysInside_iff.2 ⟨?_, ?_⟩, ?_, ?_, ?_⟩
  · rw [hd.inside_eq h.isAbsolute, Path.isAbsolute_join h.isAbsolute, hrel]
  · rw [hnames, List.mem_cons, not_or]
    exact ⟨hentry.ne_up.symm, (Path.staysInside_iff.1 h.staysInside).2⟩
  · rw [hd.inside_eq h.isAbsolute]
    rw [Path.hasNul_join h.isAbsolute, hd.hasNul, h.hasNul]
    rfl
  · rw [hnames]
    intro part hpart
    rcases List.mem_cons.1 hpart with rfl | hpart
    · exact hd.areNames _ (by simp)
    · exact h.areNames part hpart
  · obtain ⟨above, last, hends, hlast⟩ := h.endsIn
    rw [hd.inside_eq h.isAbsolute]
    exact ⟨_, last, hends.join h.isAbsolute, hlast⟩

/-- The name of the manifest is the path of a file. -/
lemma isFilePath_manifest : IsFilePath manifestName := by
  have hentries : FileTree.AreEntries ([] ++ [manifestName]) := by
    intro name hname
    rw [List.mem_singleton.1 hname]
    exact ⟨⟨by decide, by decide, by decide⟩, by decide⟩
  have hends := hentries.endsIn
  have hnames := hentries.names_spelled
  have hstays := hentries.staysInside
  rw [List.nil_append, spelled_singleton] at hends hnames hstays
  refine ⟨hstays, by decide, ?_, [], manifestName, hends, by decide⟩
  rw [hnames]
  intro name hname
  rw [List.mem_singleton.1 hname]
  exact ⟨⟨by decide, by decide, by decide⟩, by decide +kernel⟩

/-! ## Where entries come from -/

/-- An entry that is the file of a name in a directory of the project. -/
structure Copied (tree : FileTree) (root directory name : String) (e : String × ByteArray) : Prop where
  key : e.1 = inside directory name
  staysInside : Path.staysInside name = true
  file : ∃ place mode, tree.Reaches (Path.join root name) place ∧
    tree.node? place = some (.file e.2 mode)

/-- An entry is the manifest, or a file that was copied from the frame or from the fuels. -/
lemma Holds.cases {e : String × ByteArray} (hsound : tree.Sound)
    (h : Holds tree project document e) :
    e = (manifestName, manifestContent document) ∨
      (∃ frame name, project.frame = some frame ∧ Copied tree frame frameDirectory name e) ∨
      ∃ root name, project.fuels = some root ∧ Copied tree root fuelDirectory name e := by
  cases h with
  | manifest => exact .inl rfl
  | frame hframe hfiles hfile hread =>
    obtain ⟨_, _, hspelled⟩ := Assembly.listFiles_ok hsound hfiles
    obtain ⟨names, _, hentries, _, rfl⟩ := hspelled _ hfile
    obtain ⟨place, mode, hlocate, hnode⟩ := read_eq_ok hread
    exact .inr (.inl ⟨_, _, hframe, rfl, hentries.staysInside, place, mode,
      FileTree.reaches_of_locate hlocate, hnode⟩)
  | fuel hroot _ hcontent =>
    obtain ⟨hstays, place, mode, hreaches, hnode⟩ := file_of_ofDirectory hcontent
    exact .inr (.inr ⟨_, _, hroot, rfl, hstays, place, mode, hreaches, hnode⟩)

section

variable {root root' directory' name' : String} {e e' : String × ByteArray}

/-- A file that was copied has the path of a file in the project. -/
lemma Copied.isFilePath_name (h : Copied tree root directory name e) (hsound : tree.Sound) :
    IsFilePath name := by
  obtain ⟨place, mode, hreaches, hnode⟩ := h.file
  exact isFilePath_of_reaches hsound h.staysInside hreaches hnode

/-- It has one in the archive. -/
lemma Copied.isFilePath (h : Copied tree root directory name e) (hsound : tree.Sound)
    (hd : IsDirectoryName directory) : IsFilePath e.1 :=
  h.key ▸ (h.isFilePath_name hsound).inside hd

/-- The names of its entry. -/
lemma Copied.names (h : Copied tree root directory name e) (hsound : tree.Sound)
    (hd : IsDirectoryName directory) : Path.names e.1 = directory :: Path.names name :=
  h.key ▸ (h.isFilePath_name hsound).names_inside hd

/-- Of two files of one directory neither is in the way of the other. -/
lemma Copied.fit (h : Copied tree root directory name e) (h' : Copied tree root directory name' e')
    (hsound : tree.Sound) (hd : IsDirectoryName directory) : Fit e e' := by
  intro hpre
  rw [h.names hsound hd, h'.names hsound hd] at hpre ⊢
  obtain ⟨place, mode, hreaches, hnode⟩ := h.file
  obtain ⟨place', mode', hreaches', hnode'⟩ := h'.file
  have hrel := (h.isFilePath_name hsound).isAbsolute
  have hrel' := (h'.isFilePath_name hsound).isAbsolute
  have hroots : Path.isAbsolute (Path.join root name) = Path.isAbsolute (Path.join root name') := by
    rw [Path.isAbsolute_join hrel, Path.isAbsolute_join hrel']
  obtain ⟨hnames, rfl⟩ := hsound.eq_of_prefix hreaches hnode hreaches' hroots (by
    rw [Path.names_join hrel, Path.names_join hrel', List.prefix_append_right_inj]
    exact (List.cons_prefix_cons.1 hpre).2)
  rw [Path.names_join hrel, Path.names_join hrel'] at hnames
  rw [hnode] at hnode'
  injection hnode' with hfile
  injection hfile with hdata
  exact ⟨congrArg _ (List.append_cancel_left hnames), hdata⟩

/-- Entries that begin with different names are not in the way of each other. -/
lemma fit_of_heads {first first' : String} {rest rest' : List String} (hne : first ≠ first')
    (h : Path.names e.1 = first :: rest) (h' : Path.names e'.1 = first' :: rest') : Fit e e' := by
  intro hpre
  rw [h, h'] at hpre
  exact absurd (List.cons_prefix_cons.1 hpre).1 hne

/-- The manifest stands at the top of a pack. -/
lemma names_manifest : Path.names manifestName = [manifestName] := by decide +kernel

/-- Every entry of a bundle has the path of a file. -/
lemma Holds.isFilePath (hsound : tree.Sound) (h : Holds tree project document e) :
    IsFilePath e.1 := by
  rcases h.cases hsound with rfl | ⟨_, _, _, hcopied⟩ | ⟨_, _, _, hcopied⟩
  · exact isFilePath_manifest
  · exact hcopied.isFilePath hsound frameDirectory_isName
  · exact hcopied.isFilePath hsound fuelDirectory_isName

/-- No entry of a bundle is in the way of another. -/
lemma Holds.fit (hsound : tree.Sound) (h : Holds tree project document e)
    (h' : Holds tree project document e') : Fit e e' := by
  have hframe := frameDirectory_isName
  have hfuel := fuelDirectory_isName
  rcases h.cases hsound with rfl | ⟨_, _, hroot, hcopied⟩ | ⟨_, _, hroot, hcopied⟩
  all_goals rcases h'.cases hsound with rfl | ⟨_, _, hroot', hcopied'⟩ | ⟨_, _, hroot', hcopied'⟩
  · exact fun _ => ⟨rfl, rfl⟩
  · exact fit_of_heads (by decide) names_manifest (hcopied'.names hsound hframe)
  · exact fit_of_heads (by decide) names_manifest (hcopied'.names hsound hfuel)
  · exact fit_of_heads (by decide) (hcopied.names hsound hframe) names_manifest
  · rw [hroot] at hroot'
    cases hroot'
    exact hcopied.fit hcopied' hsound hframe
  · exact fit_of_heads (by decide) (hcopied.names hsound hframe) (hcopied'.names hsound hfuel)
  · exact fit_of_heads (by decide) (hcopied.names hsound hfuel) names_manifest
  · exact fit_of_heads (by decide) (hcopied.names hsound hfuel) (hcopied'.names hsound hframe)
  · rw [hroot] at hroot'
    cases hroot'
    exact hcopied.fit hcopied' hsound hfuel

end

/-! ## Staging a bundle -/

/-- The path of a file is a safe name, unless there is a backslash in it. -/
lemma IsFilePath.isSafeName (h : IsFilePath name) (hback : '\\' ∉ name.toList) :
    Archive.isSafeName name = true := by
  have hne : name ≠ "" := by
    rintro rfl
    exact h.names_ne_nil Path.names_empty
  simp [Archive.isSafeName, hne, hback, h.staysInside]

/-- A bundle can be staged wherever its paths are not too long. -/
lemma stageable_of_bundleEntries {staging : String} (hsound : tree.Sound)
    (h : bundleEntries tree project document = .ok entries)
    (hback : ∀ name ∈ entries.keys, '\\' ∉ name.toList)
    (hsize : ∀ name ∈ entries.keys,
      (Path.join staging name).utf8ByteSize < FileTree.pathLimit) :
    Stageable staging entries.entries := by
  have hholds : ∀ e ∈ entries.entries, Holds tree project document e :=
    fun e he => (mem_bundleEntries h e).1 he
  have hkeys : ∀ e ∈ entries.entries, e.1 ∈ entries.keys :=
    fun e he => Dict.mem_keys.2 ⟨e.2, he⟩
  refine ⟨fun e he => (hholds e he).isFilePath hsound, fun e he => ?_,
    fun e he => hsize e.1 (hkeys e he), fun e he e' he' => (hholds e he).fit hsound (hholds e' he')⟩
  exact ((hholds e he).isFilePath hsound).isSafeName (hback e.1 (hkeys e he))

/-- The files of the frame of a project. -/
inductive Listed (tree : FileTree) (project : BundleSettings) : List String → Prop where
  | none : project.frame = none → Listed tree project []
  | some {frame files} : project.frame = some frame → Assembly.listFiles tree frame = .ok files →
    Listed tree project files

/-- When a project is bundled, the files of its frame are listed. -/
lemma listed_of_bundleEntries (h : bundleEntries tree project document = .ok entries) :
    ∃ files, Listed tree project files := by
  cases hframe : project.frame with
  | none => exact ⟨[], .none hframe⟩
  | some frame =>
    obtain ⟨files, hfiles, _⟩ := frame_of_bundleEntries h hframe
    exact ⟨files, .some hframe hfiles⟩

variable {files : List String}

/-- The entries in the directory of the frame are the files of the frame. -/
lemma Listed.entry (hlisted : Listed tree project files) (hsound : tree.Sound)
    {e : String × ByteArray} (h : Holds tree project document e)
    (hpre : [frameDirectory] <+: Path.names e.1) :
    ∃ names, names ≠ [] ∧ FileTree.AreEntries names ∧ FileTree.spelled names ∈ files ∧
      e.1 = FileTree.spelled ([frameDirectory] ++ names) := by
  cases h with
  | manifest =>
    rw [names_manifest] at hpre
    exact absurd (List.cons_prefix_cons.1 hpre).1 (by decide)
  | @frame _ files' _ _ hframe hfiles hfile =>
    have hsame : files = files' := by
      cases hlisted with
      | none hnone =>
        rw [hnone] at hframe
        cases hframe
      | some hframe' hfiles' =>
        rw [hframe] at hframe'
        cases hframe'
        rw [hfiles] at hfiles'
        cases hfiles'
        rfl
    obtain ⟨_, _, hspelled⟩ := Assembly.listFiles_ok hsound hfiles
    obtain ⟨names, hne, hentries, _, rfl⟩ := hspelled _ hfile
    refine ⟨names, hne, hentries, hsame ▸ hfile, ?_⟩
    rw [FileTree.spelled_append (by simp) hne, spelled_singleton]
    rfl
  | fuel _ _ hcontent =>
    obtain ⟨hstays, place, mode, hreaches, hnode⟩ := file_of_ofDirectory hcontent
    have hpath := isFilePath_of_reaches hsound hstays hreaches hnode
    rw [hpath.names_inside fuelDirectory_isName] at hpre
    exact absurd (List.cons_prefix_cons.1 hpre).1 (by decide)

/-- The entries below the directory of the frame are spelled by their names. -/
lemma Listed.spelledBelow (hlisted : Listed tree project files) (hsound : tree.Sound)
    (h : bundleEntries tree project document = .ok entries) :
    SpelledBelow entries.entries [frameDirectory] := by
  intro e he hpre
  obtain ⟨names, hne, hentries, _, hkey⟩ := hlisted.entry hsound ((mem_bundleEntries h e).1 he) hpre
  exact ⟨names, hne, areEntries_frame.append hentries, hkey⟩

/-- A listing of the staged frame finds the files of the frame. -/
lemma Listed.mem_iff (hlisted : Listed tree project files) (hsound : tree.Sound)
    (h : bundleEntries tree project document = .ok entries) (file : String) :
    file ∈ files ↔ Finds entries.entries [frameDirectory] [] file := by
  constructor
  · intro hfile
    cases hlisted with
    | none => cases hfile
    | some hframe hfiles =>
      obtain ⟨_, _, hspelled⟩ := Assembly.listFiles_ok hsound hfiles
      obtain ⟨names, hne, hentries, _, rfl⟩ := hspelled _ hfile
      obtain ⟨files', hfiles', hdata⟩ := frame_of_bundleEntries h hframe
      rw [hfiles] at hfiles'
      cases hfiles'
      obtain ⟨data, hread⟩ := hdata _ hfile
      refine ⟨names, ⟨_, (mem_bundleEntries h _).2 (.frame hframe hfiles hfile hread), ?_⟩, rfl⟩
      have hkey : inside frameDirectory (FileTree.spelled names) =
          FileTree.spelled ([frameDirectory] ++ names) := by
        rw [FileTree.spelled_append (by simp) hne, spelled_singleton]
        rfl
      rw [hkey, (areEntries_frame.append hentries).names_spelled]
  · rintro ⟨more, ⟨e, he, hnames⟩, rfl⟩
    obtain ⟨names, _, hentries, hmem, hkey⟩ :=
      hlisted.entry hsound ((mem_bundleEntries h e).1 he) (hnames ▸ List.prefix_append ..)
    rw [hkey, (areEntries_frame.append hentries).names_spelled] at hnames
    rw [← List.append_cancel_left hnames]
    exact hmem

/-- The files of a frame are listed in order. -/
lemma Listed.pairwise (hlisted : Listed tree project files) (hsound : tree.Sound) :
    files.Pairwise (· ≤ ·) := by
  cases hlisted with
  | none => exact .nil
  | some _ hfiles => exact (Assembly.listFiles_ok hsound hfiles).2.1

/-- There is no null character in the path of a file. -/
lemma Listed.hasNul (hlisted : Listed tree project files) (hsound : tree.Sound) :
    ∀ file ∈ files, Path.hasNul file = false := by
  intro file hfile
  cases hlisted with
  | none => cases hfile
  | some _ hfiles =>
    obtain ⟨_, _, hspelled⟩ := Assembly.listFiles_ok hsound hfiles
    obtain ⟨_, _, _, hnul, _⟩ := hspelled file hfile
    exact hnul

end ConfigPack.Pack
