import ConfigPack.Pack.Bundle
import ConfigPack.Proofs.Assembly.Listing
import ConfigPack.Proofs.Fuel
import ConfigPack.Proofs.Work

/-!
# What a bundle holds

The entries of a bundle are the manifest, the files of the frame and the fuels that the manifest
refers to, each under a name of its own (`mem_bundleEntries`).
-/

namespace ConfigPack.Pack

variable {σ : Type} {tree : FileTree} {project : BundleSettings} {document : Json}
  {entries : Dict ByteArray}

/-- The name of an entry in a directory of a pack. -/
def inside (directory name : String) : String := directory ++ "/" ++ name

/-- The characters of a name in a directory of a pack. -/
lemma toList_inside (directory name : String) :
    (inside directory name).toList = directory.toList ++ '/' :: name.toList := by
  simp [inside, String.toList_append]

/-- In one directory different names are different entries. -/
lemma inside_inj {directory name name' : String} (h : inside directory name = inside directory name') :
    name = name' := by
  have hchars := congrArg String.toList h
  simp only [toList_inside, List.append_cancel_left_eq, List.cons.injEq, true_and] at hchars
  exact String.toList_inj.1 hchars

/-- An entry of the frame is no fuel. -/
lemma inside_frame_ne_fuel (file name : String) :
    inside frameDirectory file ≠ inside fuelDirectory name := by
  intro h
  have hchars := congrArg String.toList h
  simp [toList_inside, frameDirectory, fuelDirectory] at hchars

/-- The manifest is no entry of the frame. -/
lemma manifestName_ne_frame (file : String) : manifestName ≠ inside frameDirectory file := by
  intro h
  have hchars := congrArg String.toList h
  simp [toList_inside, frameDirectory, manifestName] at hchars

/-- The manifest is no fuel. -/
lemma manifestName_ne_fuel (name : String) : manifestName ≠ inside fuelDirectory name := by
  intro h
  have hchars := congrArg String.toList h
  simp [toList_inside, fuelDirectory, manifestName] at hchars

/-- What a bundle of a project holds. -/
inductive Holds (tree : FileTree) (project : BundleSettings) (document : Json) :
    String × ByteArray → Prop where
  | manifest : Holds tree project document (manifestName, manifestContent document)
  | frame {frame files file data} :
    project.frame = some frame → Assembly.listFiles tree frame = .ok files → file ∈ files →
    tree.read (Path.join frame file) = .ok data →
    Holds tree project document (inside frameDirectory file, data)
  | fuel {root name content} :
    project.fuels = some root → name ∈ Fuel.referenced document →
    Fuel.ofDirectory tree root name = .ok content →
    Holds tree project document (inside fuelDirectory name, content.toUTF8)

/-- A file of the frame that is added. -/
def frameData (tree : FileTree) (frame file : String) : Except Failure ByteArray :=
  (tree.read (Path.join frame file)).mapError (.pack ∘ .io (Path.join frame file))

/-- A fuel that is added. -/
def fuelData (tree : FileTree) (root name : String) : Except Failure ByteArray :=
  ((Fuel.ofDirectory tree root name).mapError .config).map String.toUTF8

/-- The files of a frame are added one after the other, in the order they are listed in. -/
lemma addFrame_eq (tree : FileTree) (frame : String) (entries : Dict ByteArray) :
    addFrame tree frame entries = (do
      let files ← (Assembly.listFiles tree frame).mapError .assembly
      files.foldlM (fun d file =>
        (frameData tree frame file).map (d.insert (inside frameDirectory file))) entries) := by
  have hstep : ∀ (d : Dict ByteArray) (file : String),
      (do
        let data ← (tree.read (Path.join frame file)).mapError
          (Failure.pack ∘ .io (Path.join frame file))
        return d.insert (frameDirectory ++ "/" ++ file) data) =
      (frameData tree frame file).map (d.insert (inside frameDirectory file)) := by
    intro d file
    rw [frameData]
    cases tree.read (Path.join frame file) <;> rfl
  simp only [addFrame, hstep]

/-- Fuels are added one after the other, in the order they are referred to. -/
lemma addFuels_eq (tree : FileTree) (root : String) (fuels : List String)
    (entries : Dict ByteArray) :
    addFuels tree (some root) fuels entries =
      fuels.foldlM (fun d name =>
        (fuelData tree root name).map (d.insert (inside fuelDirectory name))) entries := by
  have hstep : ∀ (d : Dict ByteArray) (name : String),
      (do
        let content ← (Fuel.ofDirectory tree root name).mapError Failure.config
        return d.insert (fuelDirectory ++ "/" ++ name) content.toUTF8) =
      (fuelData tree root name).map (d.insert (inside fuelDirectory name)) := by
    intro d name
    rw [fuelData]
    cases Fuel.ofDirectory tree root name <;> rfl
  cases fuels with
  | nil => rfl
  | cons first rest =>
    simp only [addFuels, List.isEmpty_cons, Bool.false_eq_true, ↓reduceIte, hstep]

/-- The data of a file of the frame is what is read where the file is. -/
lemma frameData_eq_ok {frame file : String} {data : ByteArray} :
    frameData tree frame file = .ok data ↔ tree.read (Path.join frame file) = .ok data :=
  Result.mapError_eq_ok

/-- The data of a fuel is the text of the fuel in bytes. -/
lemma fuelData_eq_ok {root name : String} {data : ByteArray} :
    fuelData tree root name = .ok data ↔
      ∃ content, Fuel.ofDirectory tree root name = .ok content ∧ content.toUTF8 = data := by
  rw [fuelData, Result.map_eq_ok]
  simp only [Result.mapError_eq_ok]

/-- Adding a frame adds its files, all of which can be read. -/
lemma addFrame_ok {frame : String} {start : Dict ByteArray}
    (h : addFrame tree frame start = .ok entries) :
    ∃ files, Assembly.listFiles tree frame = .ok files ∧
      (∀ file ∈ files, ∃ data, tree.read (Path.join frame file) = .ok data) ∧
      ∀ e, e ∈ entries.entries ↔
        (∃ file ∈ files, tree.read (Path.join frame file) = .ok e.2 ∧
          e.1 = inside frameDirectory file) ∨
        e ∈ start.entries ∧ ∀ file ∈ files, e.1 ≠ inside frameDirectory file := by
  rw [addFrame_eq] at h
  obtain ⟨files, hfiles, h⟩ := Result.bind_eq_ok.1 h
  obtain ⟨hdata, hentries⟩ := Dict.mem_foldlM_insert (fun _ _ _ _ => inside_inj) h
  simp only [frameData_eq_ok] at hdata hentries
  exact ⟨files, Result.mapError_eq_ok.1 hfiles, hdata, hentries⟩

/-- Adding fuels adds those that are named, all of which are there. -/
lemma addFuels_ok {fuels : Option String} {names : List String} {start : Dict ByteArray}
    (h : addFuels tree fuels names start = .ok entries) :
    (∀ name ∈ names, ∃ root content, fuels = some root ∧
      Fuel.ofDirectory tree root name = .ok content) ∧
      ∀ e, e ∈ entries.entries ↔
        (∃ root content, fuels = some root ∧ ∃ name ∈ names,
          Fuel.ofDirectory tree root name = .ok content ∧
          e = (inside fuelDirectory name, content.toUTF8)) ∨
        e ∈ start.entries ∧ ∀ name ∈ names, e.1 ≠ inside fuelDirectory name := by
  cases fuels with
  | none =>
    cases names with
    | nil =>
      cases h
      simp
    | cons first rest => cases h
  | some root =>
    rw [addFuels_eq] at h
    obtain ⟨hdata, hentries⟩ := Dict.mem_foldlM_insert (fun _ _ _ _ => inside_inj) h
    simp only [fuelData_eq_ok] at hdata hentries
    refine ⟨fun name hname => ?_, fun e => ?_⟩
    · obtain ⟨_, content, hcontent, _⟩ := hdata name hname
      exact ⟨root, content, rfl, hcontent⟩
    · rw [hentries]
      constructor
      · rintro (⟨name, hname, ⟨content, hcontent, hbytes⟩, hkey⟩ | h)
        · exact .inl ⟨root, content, rfl, name, hname, hcontent, Prod.ext hkey hbytes.symm⟩
        · exact .inr h
      · rintro (⟨_, content, ⟨⟩, name, hname, hcontent, rfl⟩ | h)
        · exact .inl ⟨name, hname, ⟨content, hcontent, rfl⟩, rfl⟩
        · exact .inr h

/-- A bundle holds the manifest, the files of the frame and the fuels, and nothing else. -/
lemma mem_bundleEntries (h : bundleEntries tree project document = .ok entries)
    (e : String × ByteArray) : e ∈ entries.entries ↔ Holds tree project document e := by
  -- the manifest comes first, the frame next, and the fuels last; no two of them share a name
  have hmanifest : ∀ e, e ∈ (Dict.empty.insert manifestName (manifestContent document)).entries ↔
      e = (manifestName, manifestContent document) := by
    intro e
    rw [Dict.mem_insert]
    simp [Dict.empty]
  rw [bundleEntries] at h
  cases hframe : project.frame with
  | none =>
    rw [hframe] at h
    obtain ⟨_, hentries⟩ := addFuels_ok h
    rw [hentries, hmanifest]
    constructor
    · rintro (⟨root, content, hroot, name, hname, hcontent, rfl⟩ | ⟨rfl, _⟩)
      · exact .fuel hroot hname hcontent
      · exact .manifest
    · rintro (_ | ⟨hframe', _, _, _⟩ | ⟨hroot, hname, hcontent⟩)
      · exact .inr ⟨rfl, fun name _ => manifestName_ne_fuel name⟩
      · rw [hframe] at hframe'
        cases hframe'
      · exact .inl ⟨_, _, hroot, _, hname, hcontent, rfl⟩
  | some frame =>
    rw [hframe] at h
    obtain ⟨framed, hframed, h⟩ := Result.bind_eq_ok.1 h
    obtain ⟨files, hfiles, _, hframedEntries⟩ := addFrame_ok hframed
    obtain ⟨_, hentries⟩ := addFuels_ok h
    rw [hentries, hframedEntries, hmanifest]
    constructor
    · rintro (⟨root, content, hroot, name, hname, hcontent, rfl⟩ |
        ⟨⟨file, hfile, hdata, hkey⟩ | ⟨rfl, _⟩, _⟩)
      · exact .fuel hroot hname hcontent
      · obtain ⟨key, data⟩ := e
        cases hkey
        exact .frame hframe hfiles hfile hdata
      · exact .manifest
    · rintro (_ | ⟨hframe', hfiles', hfile, hdata⟩ | ⟨hroot, hname, hcontent⟩)
      · exact .inr ⟨.inr ⟨rfl, fun file _ => manifestName_ne_frame file⟩,
          fun name _ => manifestName_ne_fuel name⟩
      · rw [hframe] at hframe'
        cases hframe'
        rw [hfiles] at hfiles'
        cases hfiles'
        exact .inr ⟨.inl ⟨_, hfile, hdata, rfl⟩, fun name _ => inside_frame_ne_fuel _ name⟩
      · exact .inl ⟨_, _, hroot, _, hname, hcontent, rfl⟩

/-- The files of the frame that is bundled, all of which can be read. -/
lemma frame_of_bundleEntries (h : bundleEntries tree project document = .ok entries)
    {frame : String} (hframe : project.frame = some frame) :
    ∃ files, Assembly.listFiles tree frame = .ok files ∧
      ∀ file ∈ files, ∃ data, tree.read (Path.join frame file) = .ok data := by
  rw [bundleEntries, hframe] at h
  obtain ⟨framed, hframed, _⟩ := Result.bind_eq_ok.1 h
  obtain ⟨files, hfiles, hdata, _⟩ := addFrame_ok hframed
  exact ⟨files, hfiles, hdata⟩

/-- Every fuel that the manifest refers to is there. -/
lemma fuel_of_bundleEntries (h : bundleEntries tree project document = .ok entries) {name : String}
    (hname : name ∈ Fuel.referenced document) :
    ∃ root content, project.fuels = some root ∧ Fuel.ofDirectory tree root name = .ok content := by
  rw [bundleEntries] at h
  cases hframe : project.frame with
  | none =>
    rw [hframe] at h
    exact (addFuels_ok h).1 name hname
  | some frame =>
    rw [hframe] at h
    obtain ⟨framed, _, h⟩ := Result.bind_eq_ok.1 h
    exact (addFuels_ok h).1 name hname

end ConfigPack.Pack
