import ConfigPack.Install
import ConfigPack.Proofs.Pack.Portable

/-!
# Staged bundles mirror their projects

A bundle that is staged offers all that an installation of the project looks at: the manifest, the
files of the frame under the same names and in the same order, and the fuels that the manifest
refers to (`Layout.mirrors`).
-/

namespace ConfigPack.Pack

/-- Every place on the way to a fuel of a staged pack is near enough to the root to be asked for. -/
def FuelInReach (tree : FileTree) (staging name : String) : Prop :=
  FileTree.ShortWay (FileTree.start tree.workingDirectory staging)
    (Path.names (Path.join (Path.join staging fuelDirectory) name))

variable {tree t t' : FileTree} {base : Place} {staging : String} {project : BundleSettings}
  {document : Json} {entries : Dict ByteArray} {files : List String}

/-- What a tree with a project and a tree with its staged bundle have in common. -/
structure Mirrors (t t' : FileTree) (project : BundleSettings) (document : Json)
    (files : List String) (staging : String) : Prop where
  manifest : t'.readText (Path.join staging manifestName) = .ok (document.indented ++ "\n")
  listed : Assembly.frameJobsIn t project.frame =
    .ok (files.map (Assembly.frameJob (project.frame.getD "")))
  staged : Assembly.frameJobsIn t' (some (Path.join staging frameDirectory)) =
    .ok (files.map (Assembly.frameJob (Path.join staging frameDirectory)))
  file : ∀ file ∈ files, ∃ data, t.read (Path.join (project.frame.getD "") file) = .ok data ∧
    t'.read (Path.join (Path.join staging frameDirectory) file) = .ok data
  fuel : ∀ name ∈ Fuel.referenced document, FuelInReach t staging name →
    Install.fuelSource t' (some (Path.join staging fuelDirectory)) name =
      Install.fuelSource t project.fuels name
  farFuel : ∀ name ∈ Fuel.referenced document, ¬ FuelInReach t staging name →
    ∀ content, Install.fuelSource t' (some (Path.join staging fuelDirectory)) name ≠ .ok content

/-- There is a job for every file that is listed. -/
lemma Listed.frameJobsIn (hlisted : Listed tree project files) (hsound : tree.Sound) :
    Assembly.frameJobsIn tree project.frame =
      .ok (files.map (Assembly.frameJob (project.frame.getD ""))) := by
  cases hlisted with
  | none hnone =>
    rw [hnone]
    rfl
  | some hframe hfiles =>
    obtain ⟨hdirectory, _, _⟩ := Assembly.listFiles_ok hsound hfiles
    rw [hframe, Assembly.frameJobsIn, if_pos hdirectory, hfiles]
    rfl

/-- A path in a directory of a pack is a path in the pack. -/
lemma IsDirectoryName.join_join {directory name : String} (h : IsDirectoryName directory)
    (hrel : Path.isAbsolute name = false) :
    Path.join (Path.join staging directory) name = Path.join staging (inside directory name) := by
  have hjoin : Path.join (Path.join staging (FileTree.spelled [directory])) name = _ :=
    h.areEntries.join_join (by simp) hrel
  rwa [spelled_singleton] at hjoin

/-- A directory of a staged pack is reached through directories. -/
lemma Layout.enters_directory {list : List (String × ByteArray)} (h : Layout tree base list t')
    (hprivate : Private tree staging base) (hstageable : Stageable staging list)
    {directory name : String} (hd : IsDirectoryName directory) (hname : IsFilePath name)
    {data : ByteArray} (he : (inside directory name, data) ∈ list) :
    t'.Enters (FileTree.start t'.workingDirectory (Path.join staging directory))
        (Path.names (Path.join staging directory)) (base ++ [directory]) ∧
      FileTree.Fits (Path.join staging directory) := by
  have hnames := hname.names_inside hd
  have hdirectory : t'.node? (base ++ [directory]) = some .directory := by
    refine h.directory _ he [directory] (by simp) ?_ ?_
    · rw [hnames]
      exact ⟨Path.names name, rfl⟩
    · rw [hnames]
      simpa using hname.names_ne_nil.symm
  have hrel : Path.isAbsolute directory = false := spelled_singleton directory ▸ hd.areEntries.isAbsolute
  have hne : directory ≠ "" := spelled_singleton directory ▸ hd.areEntries.spelled_ne_empty (by simp)
  have hfits := (hstageable.isFilePath _ he).fits hprivate (hstageable.size _ he)
  have hfront : Path.join staging (inside directory name) =
      Path.join staging directory ++ ("/" ++ name) := by
    rw [inside, String.append_assoc, FileTree.join_append hne]
  refine ⟨?_, (hfront ▸ hfits).of_append fun hempty => ?_⟩
  · rw [Path.names_join hrel, hd.names]
    refine (h.enters hprivate hrel).append (hd.areNames.enters fun front hfront hpre => ?_)
    obtain ⟨more, hmore⟩ := hpre
    obtain ⟨rfl, _⟩ := List.append_eq_singleton_iff.1 hmore |>.resolve_left fun hnil => hfront hnil.1
    exact hdirectory
  · have hall : Path.names (Path.join staging directory) = _ := Path.names_join hrel
    rw [hempty, Path.names_empty, hd.names] at hall
    simp at hall

/-- A fuel of the project is staged as an entry of its directory. -/
lemma Layout.fuelEntry (h : Layout tree base entries.entries t') (hprivate : Private tree staging base)
    (hstageable : Stageable staging entries.entries) {name : String} (hpath : IsFilePath name)
    {data : ByteArray} (he : (inside fuelDirectory name, data) ∈ entries.entries) :
    ∃ directory last, t'.EntryIn (Path.join (Path.join staging fuelDirectory) name) directory last ∧
      base ++ Path.names (inside fuelDirectory name) = directory ++ [last] := by
  have hne := (hstageable.isFilePath _ he).names_ne_nil
  have hnames := (List.dropLast_concat_getLast hne).symm
  have hentry := h.entryIn hprivate hstageable he hnames
  rw [← fuelDirectory_isName.join_join hpath.isAbsolute] at hentry
  exact ⟨_, _, hentry, by rw [List.append_assoc, ← hnames]⟩

/-- The way to a staged fuel starts where the way to the directory does. -/
lemma Layout.fuelInReach_iff {list : List (String × ByteArray)} (h : Layout tree base list t')
    {name : String} (hrel : Path.isAbsolute name = false) :
    FuelInReach tree staging name ↔
      FileTree.ShortWay
        (FileTree.start t'.workingDirectory (Path.join (Path.join staging fuelDirectory) name))
        (Path.names (Path.join (Path.join staging fuelDirectory) name)) := by
  have hfuel : Path.isAbsolute fuelDirectory = false := by decide
  have habs : Path.isAbsolute (Path.join (Path.join staging fuelDirectory) name) =
      Path.isAbsolute staging := by
    rw [Path.isAbsolute_join hrel, Path.isAbsolute_join hfuel]
  rw [FuelInReach, h.workingDirectory, FileTree.start_eq habs]

/-- A fuel of the project that can be reached is a fuel of the staged pack. -/
lemma Layout.fuel (h : Layout tree base entries.entries t') (hprivate : Private tree staging base)
    (hstageable : Stageable staging entries.entries) (hsound : tree.Sound)
    (hbundle : bundleEntries tree project document = .ok entries) {root name content : String}
    (hroot : project.fuels = some root) (hname : name ∈ Fuel.referenced document)
    (hcontent : Fuel.ofDirectory tree root name = .ok content)
    (hway : FuelInReach tree staging name) :
    Fuel.ofDirectory t' (Path.join staging fuelDirectory) name = .ok content := by
  have he := (mem_bundleEntries hbundle _).2 (.fuel hroot hname hcontent)
  obtain ⟨hstays, place, mode, hreaches, hnode⟩ := file_of_ofDirectory hcontent
  have hpath := isFilePath_of_reaches hsound hstays hreaches hnode
  have hne : name ≠ "" := (Fuel.ofDirectory_eq_ok.1 hcontent).1
  obtain ⟨directory, last, hentry, hplace⟩ := h.fuelEntry hprivate hstageable hpath he
  obtain ⟨htop, hfits⟩ := h.enters_directory hprivate hstageable fuelDirectory_isName hpath he
  have hfile := h.file _ he
  rw [h.fuelInReach_iff hpath.isAbsolute] at hway
  -- the directory of the fuels is on the way
  have htopWay := hway
  rw [Path.names_join hpath.isAbsolute, FileTree.start_eq (Path.isAbsolute_join hpath.isAbsolute)]
    at htopWay
  have htopCanonical := htop.canonical hfits
  rw [if_pos htopWay.of_append] at htopCanonical
  rw [hplace] at hfile
  have hcanonical := hentry.canonical_file hfile
  rw [if_pos hway] at hcanonical
  refine Fuel.ofDirectory_eq_ok.2 ⟨hne, hstays, _, _, FileTree.newFileMode, hcanonical,
    htopCanonical, ?_, hentry.near hway, hfile⟩
  rw [← hplace, hpath.names_inside fuelDirectory_isName]
  exact (List.prefix_append_right_inj base).2 ⟨Path.names name, rfl⟩

/-- One that cannot be reached is not. -/
lemma Layout.farFuel (h : Layout tree base entries.entries t') (hprivate : Private tree staging base)
    (hstageable : Stageable staging entries.entries) (hsound : tree.Sound)
    (hbundle : bundleEntries tree project document = .ok entries) {root name content : String}
    (hroot : project.fuels = some root) (hname : name ∈ Fuel.referenced document)
    (hcontent : Fuel.ofDirectory tree root name = .ok content)
    (hway : ¬ FuelInReach tree staging name) (content' : String) :
    Fuel.ofDirectory t' (Path.join staging fuelDirectory) name ≠ .ok content' := by
  intro hcontent'
  have he := (mem_bundleEntries hbundle _).2 (.fuel hroot hname hcontent)
  obtain ⟨hstays, place, mode, hreaches, hnode⟩ := file_of_ofDirectory hcontent
  have hpath := isFilePath_of_reaches hsound hstays hreaches hnode
  obtain ⟨directory, last, hentry, hplace⟩ := h.fuelEntry hprivate hstageable hpath he
  have hfile := h.file _ he
  rw [hplace] at hfile
  obtain ⟨_, _, _, _, _, hcanonical, _⟩ := Fuel.ofDirectory_eq_ok.1 hcontent'
  rw [hentry.canonical_file hfile, if_neg (by rwa [← h.fuelInReach_iff hpath.isAbsolute])]
    at hcanonical
  cases hcanonical

/-- What was staged mirrors the project. -/
lemma Layout.mirrors (h : Layout tree base entries.entries t')
    (hprivate : Private tree staging base) (hstageable : Stageable staging entries.entries)
    (hsound : tree.Sound) (hbundle : bundleEntries tree project document = .ok entries)
    (hlisted : Listed tree project files) (hnodup : files.Nodup) :
    Mirrors tree t' project document files staging where
  manifest := by
    have he := (mem_bundleEntries hbundle _).2 .manifest
    have hplace := h.locate hprivate hstageable he
    rw [FileTree.readText, hplace]
    exact FileTree.readTextAt_eq_ok.2 ⟨_, h.file _ he⟩
  listed := hlisted.frameJobsIn hsound
  staged := h.frameJobsIn hprivate hstageable (hlisted.spelledBelow hsound hbundle)
    (hlisted.pairwise hsound) hnodup (hlisted.hasNul hsound) (hlisted.mem_iff hsound hbundle)
  file := by
    intro file hfile
    cases hlisted with
    | none => cases hfile
    | some hframe hfiles =>
      obtain ⟨files', hfiles', hdata⟩ := frame_of_bundleEntries hbundle hframe
      rw [hfiles] at hfiles'
      cases hfiles'
      obtain ⟨data, hread⟩ := hdata file hfile
      have he := (mem_bundleEntries hbundle _).2 (.frame hframe hfiles hfile hread)
      obtain ⟨_, _, hspelled⟩ := Assembly.listFiles_ok hsound hfiles
      obtain ⟨names, _, hentries, _, rfl⟩ := hspelled file hfile
      have hstaged := h.read hprivate hstageable he
      rw [← frameDirectory_isName.join_join hentries.isAbsolute] at hstaged
      exact ⟨data, hframe ▸ hread, hstaged⟩
  fuel := by
    intro name hname hway
    obtain ⟨root, content, hroot, hcontent⟩ := fuel_of_bundleEntries hbundle hname
    have hstaged := h.fuel hprivate hstageable hsound hbundle hroot hname hcontent hway
    rw [hroot]
    exact hstaged.trans hcontent.symm
  farFuel := by
    intro name hname hway
    obtain ⟨root, content, hroot, hcontent⟩ := fuel_of_bundleEntries hbundle hname
    exact h.farFuel hprivate hstageable hsound hbundle hroot hname hcontent hway

/-- Every file that is listed has an entry in the bundle. -/
lemma Listed.mem_keys (hlisted : Listed tree project files)
    (hbundle : bundleEntries tree project document = .ok entries) {file : String}
    (hfile : file ∈ files) : inside frameDirectory file ∈ entries.keys := by
  cases hlisted with
  | none => cases hfile
  | some hframe hfiles =>
    obtain ⟨files', hfiles', hdata⟩ := frame_of_bundleEntries hbundle hframe
    rw [hfiles] at hfiles'
    cases hfiles'
    obtain ⟨data, hread⟩ := hdata file hfile
    exact Dict.mem_keys.2 ⟨data, (mem_bundleEntries hbundle _).2 (.frame hframe hfiles hfile hread)⟩

end ConfigPack.Pack
