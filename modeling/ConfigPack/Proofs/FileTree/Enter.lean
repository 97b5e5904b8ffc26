import ConfigPack.Proofs.FileTree.Name
import ConfigPack.Proofs.FileTree.Operations
import ConfigPack.Proofs.Result

/-!
# Going through directories

`Enters` says that names lead through directories alone.  A walk along such names succeeds, whatever
dots and slashes stand between them, and goes on from where they lead.  So it is known what an
operation does with a path whose directories are there.
-/

namespace ConfigPack.FileTree

variable {t t' : FileTree}

/-- `t.Enters place names goal`: from a place the names lead through directories to a goal. -/
inductive Enters (t : FileTree) : Place → List String → Place → Prop where
  | here {place} : Enters t place [] place
  | up {place rest goal} : Enters t place.dropLast rest goal → Enters t place (".." :: rest) goal
  | down {place name rest goal} :
    name ≠ ".." → FileName.size name ≤ maxName →
    t.node? (place ++ [name]) = some .directory →
    Enters t (place ++ [name]) rest goal →
    Enters t place (name :: rest) goal

/-- Directories are not lost on the way in a tree that has them as well. -/
lemma Enters.mono {place names goal} (h : t.Enters place names goal)
    (hdir : ∀ p, t.node? p = some .directory → t'.node? p = some .directory) :
    t'.Enters place names goal := by
  induction h with
  | here => exact .here
  | up _ ih => exact .up ih
  | down hup hsize e _ ih => exact .down hup hsize (hdir _ e) ih

/-- Directories are entered one after the other. -/
lemma Enters.append {place a mid b goal} (h : t.Enters place a mid) (h' : t.Enters mid b goal) :
    t.Enters place (a ++ b) goal := by
  induction h with
  | here => exact h'
  | up _ ih => exact .up (ih h')
  | down hup hsize e _ ih => exact .down hup hsize e (ih h')

/-- Names of directories that stand one in the other. -/
lemma Enters.descend {place : Place} :
    ∀ {names : List String},
      (∀ name ∈ names, name ≠ ".." ∧ FileName.size name ≤ maxName) →
      (∀ front, front ≠ [] → front <+: names → t.node? (place ++ front) = some .directory) →
      t.Enters place names (place ++ names) := by
  intro names
  induction names using List.reverseRecOn with
  | nil =>
    intro _ _
    rw [List.append_nil]
    exact .here
  | append_singleton names last ih =>
    intro hnames hdir
    have hfront := ih (fun name hn => hnames name (List.mem_append_left _ hn)) fun front hne hpre =>
      hdir front hne (hpre.trans (List.prefix_append ..))
    obtain ⟨hup, hsize⟩ := hnames last (by simp)
    have hlast := hdir (names ++ [last]) (by simp) List.prefix_rfl
    rw [← List.append_assoc] at hlast ⊢
    exact hfront.append (.down hup hsize hlast .here)

/-- A walk goes through directories to where its names lead, and on from there. -/
lemma Enters.walkFrom {follow : Bool} {fuel links : Nat} {steps rest : List String} :
    ∀ {place goal}, t.Enters place (Path.proper steps) goal →
      t.walkFrom follow (fuel + steps.length) links place (steps ++ rest) =
        t.walkFrom follow fuel links goal rest := by
  induction steps with
  | nil =>
    intro place goal h
    cases h
    rfl
  | cons name steps ih =>
    intro place goal h
    rw [List.length_cons, ← Nat.add_assoc, List.cons_append]
    by_cases htrivial : name = "" ∨ name = "."
    · rw [Path.proper_cons_trivial _ htrivial] at h
      simp only [FileTree.walkFrom, htrivial, ↓reduceIte]
      exact ih h
    · rw [Path.proper_cons _ htrivial] at h
      cases h with
      | up h =>
        simp only [FileTree.walkFrom, htrivial, ↓reduceIte]
        exact ih h
      | down hup hsize hdir h =>
        simp only [FileTree.walkFrom, htrivial, hup, Nat.not_lt.2 hsize, hdir, ↓reduceIte]
        exact ih h

/-! ## Paths that are taken -/

/-- A path that is taken at all: it is not empty, not too long, and has no zero character. -/
structure Fits (path : String) : Prop where
  ne_empty : path ≠ ""
  hasNul : Path.hasNul path = false
  size : path.utf8ByteSize < pathLimit

/-- A path that is walked is taken. -/
lemma fits_of_walkNames {follow : Bool} {path : String} {names : List String} {landing : Landing}
    (hnul : Path.hasNul path = false) (h : t.walkNames follow path names = .ok landing) :
    Fits path := by
  obtain ⟨hempty, hsize, _⟩ := walkNames_eq_ok.1 h
  exact ⟨hempty, hnul, FileName.pathSize_of_text hnul ▸ hsize⟩

/-- A path that is written to is taken. -/
lemma fits_of_write {path : String} {data : ByteArray} (h : t.write path data = .ok t') :
    Fits path := by
  rw [write] at h
  split at h
  · cases h
  next hnul =>
    obtain ⟨landing, hwalk, _⟩ := Result.bind_eq_ok.1 h
    exact fits_of_walkNames (by simpa using hnul) hwalk

/-- The front of a path is taken when the path is. -/
lemma Fits.of_append {front rest : String} (h : Fits (front ++ rest)) (hne : front ≠ "") :
    Fits front := by
  refine ⟨hne, ?_, ?_⟩
  · have hnul := h.hasNul
    simp only [Path.hasNul, String.toList_append, List.contains_eq_mem, List.mem_append,
      decide_eq_false_iff_not, not_or] at hnul ⊢
    exact hnul.1
  · have hsize := h.size
    rw [String.utf8ByteSize_append] at hsize
    omega

/-- The directories of the names are there, and the last name is an entry of the last of them. -/
lemma exists_split_of_proper {parts a : List String} {name : String} {b : List String}
    (h : Path.proper parts = a ++ name :: b) :
    ∃ front rest, parts = front ++ name :: rest ∧ Path.proper front = a ∧ Path.proper rest = b := by
  obtain ⟨front, behind, rfl, hfront, hbehind⟩ := List.filter_eq_append_iff.1 h
  obtain ⟨trivials, rest, rfl, htrivial, _, hrest⟩ := List.filter_eq_cons_iff.1 hbehind
  refine ⟨front ++ trivials, rest, by simp, ?_, hrest⟩
  have : Path.proper trivials = [] := by
    rw [Path.proper, List.filter_eq_nil_iff]
    exact htrivial
  rw [Path.proper_append, this, List.append_nil]
  exact hfront

/-- The steps on the way of a path that is taken are not too many. -/
lemma Fits.walkNames {path : String} (h : Fits path) (follow : Bool) {front rest : List String}
    (hlen : front.length + rest.length ≤ pathLimit + 2) {mid : Place}
    (henters : t.Enters (start t.workingDirectory path) (Path.proper front) mid) :
    ∃ fuel, t.walkNames follow path (front ++ rest) =
      t.walkFrom follow (fuel + rest.length + 1) maxLinks mid rest := by
  have hempty : path.isEmpty = false := by simpa using h.ne_empty
  have hfuel : walkFuel = walkFuel - front.length - rest.length - 1 + rest.length + 1 +
      front.length := by
    simp only [walkFuel, pathLimit] at hlen ⊢
    omega
  refine ⟨walkFuel - front.length - rest.length - 1, ?_⟩
  rw [FileTree.walkNames, FileName.pathSize_of_text h.hasNul, hempty, if_neg (by simp),
    if_neg (Nat.not_le.2 h.size), hfuel, henters.walkFrom]
  congr 1
  omega

/-- A path that fits has a bounded number of segments. -/
lemma Fits.length_segments {path : String} (h : Fits path) :
    (Path.segments path).length ≤ pathLimit := by
  have := Path.length_segments_le path
  have := h.size
  omega

/-- So it has a bounded number of those that are not empty. -/
lemma length_filter_segments {path : String} (h : Fits path) :
    ((Path.segments path).filter (· ≠ "")).length ≤ pathLimit :=
  (List.length_filter_le ..).trans h.length_segments

/-- So it has a bounded number of steps. -/
lemma Fits.length_steps {path : String} (h : Fits path) :
    (steps path).length ≤ pathLimit + 1 := by
  have := length_filter_segments h
  simp only [steps]
  split
  · rw [List.length_append, List.length_singleton]
    omega
  · omega

/-- The steps in front of the last one are bounded as well. -/
lemma Fits.length_lastStep {path : String} (h : Fits path) :
    (lastStep path).1.length ≤ pathLimit := by
  rw [lastStep_fst]
  exact length_filter_segments h

/-! ## Where everything is there -/

/-- Names that are entered are walked to their place, with or without following links. -/
lemma Enters.walkNames {path : String} {place : Place} {parts : List String}
    (h : t.Enters (start t.workingDirectory path) (Path.names path) place) (hfits : Fits path)
    (follow : Bool) (hparts : Path.proper parts = Path.names path)
    (hlen : parts.length ≤ pathLimit + 2) :
    t.walkNames follow path parts = .ok (.found place) := by
  have hlen' : parts.length + ([] : List String).length ≤ pathLimit + 2 := hlen
  obtain ⟨fuel, hwalk⟩ := hfits.walkNames follow hlen' (hparts ▸ h)
  rw [List.append_nil] at hwalk
  rw [hwalk]
  rfl

/-- A path through directories leads to the last of them. -/
lemma Enters.locate {path : String} {place : Place}
    (h : t.Enters (start t.workingDirectory path) (Path.names path) place) (hfits : Fits path) :
    t.locate path = .ok place := by
  have hlen := hfits.length_steps
  have hwalk := h.walkNames hfits true (Path.proper_steps path) (by omega)
  simp only [FileTree.locate, walk, hfits.hasNul, Bool.false_eq_true, ↓reduceIte, hwalk]
  rfl

/-- What directories lead to is a directory, when they start at one. -/
lemma Enters.isDirectory {path : String} {place : Place}
    (h : t.Enters (start t.workingDirectory path) (Path.names path) place) (hfits : Fits path)
    (hdir : t.node? place = some .directory) : t.isDirectory path = true := by
  simp only [FileTree.isDirectory, stat, h.locate hfits, bind, Except.bind, hdir]
  rfl

/-- A directory is not made where one stands. -/
lemma Enters.makeDirectory {path : String} {place : Place}
    (h : t.Enters (start t.workingDirectory path) (Path.names path) place) (hfits : Fits path) :
    t.makeDirectory path = .error .exists := by
  have hlen := hfits.length_lastStep
  have hwalk := h.walkNames hfits false (proper_lastStep path) (by omega)
  simp only [FileTree.makeDirectory, hfits.hasNul, Bool.false_eq_true, ↓reduceIte, hwalk]
  rfl

/-! ## Where the directory is there -/

/-- The steps of a path that ends with the name of an entry. -/
lemma steps_of_endsIn {path last : String} {above : List String}
    (h : Path.EndsIn path above last) (hlast : IsEntryName last) :
    ∃ front, Path.proper front = above ∧ steps path = front ++ [last] ∧
      lastStep path = (front ++ [last], .name false) := by
  obtain ⟨front, hsegments, rfl⟩ := h
  have hfilter : (Path.segments path).filter (· ≠ "") = front.filter (· ≠ "") ++ [last] := by
    rw [hsegments, List.filter_append]
    simp [hlast.ne_empty]
  have hsteps : steps path = front.filter (· ≠ "") ++ [last] := by
    simp only [steps, hfilter]
    simp [hsegments, hlast.ne_empty]
  refine ⟨front.filter (· ≠ ""), ?_, hsteps, ?_⟩
  · rw [Path.proper, Path.proper, List.filter_filter]
    congr 1
    funext s
    by_cases hs : s = "" <;> simp [Path.isTrivial, hs]
  · simp [lastStep, hsteps, hlast.ne_empty, hlast.ne_dot, hlast.ne_up]

/-- A walk along a single name lands at its entry. -/
lemma walkFrom_singleton {follow : Bool} {fuel links : Nat} {place : Place} {name : String}
    (hname : IsEntryName name) (hsize : FileName.size name ≤ maxName)
    (hlink : ∀ target, t.node? (place ++ [name]) ≠ some (.link target)) :
    t.walkFrom follow (fuel + 2) links place [name] = .ok (t.landingAt place name) := by
  simp only [walkFrom, hname.not_trivial, hname.ne_up, Nat.not_lt.2 hsize, ↓reduceIte, landingAt]
  cases hnode : t.node? (place ++ [name]) with
  | none => rfl
  | some node =>
    cases node with
    | file => rfl
    | link target => exact absurd hnode (hlink target)
    | directory => rfl

/-- A path to an entry of a directory that is there. -/
structure EntryIn (t : FileTree) (path : String) (directory : Place) (name : String) : Prop where
  fits : Fits path
  isEntryName : IsEntryName name
  size : FileName.size name ≤ maxName
  way : ∃ above, Path.EndsIn path above name ∧
    t.Enters (start t.workingDirectory path) above directory

variable {path name : String} {directory : Place}

/-- The walk to an entry of a directory lands there. -/
lemma EntryIn.walkNames (h : t.EntryIn path directory name)
    (hlink : ∀ target, t.node? (directory ++ [name]) ≠ some (.link target)) :
    ∃ parts, steps path = parts ∧ lastStep path = (parts, .name false) ∧
      ∀ follow, t.walkNames follow path parts = .ok (t.landingAt directory name) := by
  obtain ⟨above, hends, henters⟩ := h.way
  obtain ⟨front, rfl, hsteps, hlast⟩ := steps_of_endsIn hends h.isEntryName
  refine ⟨_, hsteps, hlast, fun follow => ?_⟩
  have hlen : front.length + [name].length ≤ pathLimit + 2 := by
    have := h.fits.length_steps
    rw [hsteps, List.length_append] at this
    omega
  obtain ⟨fuel, hwalk⟩ := h.fits.walkNames follow hlen henters
  rw [hwalk]
  exact walkFrom_singleton h.isEntryName h.size hlink

/-- So does the walk along the whole path. -/
lemma EntryIn.walk (h : t.EntryIn path directory name)
    (hlink : ∀ target, t.node? (directory ++ [name]) ≠ some (.link target)) (follow : Bool) :
    t.walk follow path = .ok (t.landingAt directory name) := by
  obtain ⟨parts, hsteps, _, hwalk⟩ := h.walkNames hlink
  simp only [FileTree.walk, h.fits.hasNul, Bool.false_eq_true, ↓reduceIte, hsteps, hwalk]

/-- A file that is an entry of a directory is located there. -/
lemma EntryIn.locate_file (h : t.EntryIn path directory name) {data : ByteArray} {mode : Nat}
    (hfile : t.node? (directory ++ [name]) = some (.file data mode)) :
    t.locate path = .ok (directory ++ [name]) := by
  have hwalk := h.walk (by simp [hfile]) true
  rw [landingAt_some hfile] at hwalk
  simp only [locate, hwalk]
  rfl

/-- Where nothing stands nothing is found. -/
lemma EntryIn.isDirectory_vacant (h : t.EntryIn path directory name)
    (hvacant : t.node? (directory ++ [name]) = none) : t.isDirectory path = false := by
  have hwalk := h.walk (by simp [hvacant]) true
  rw [landingAt_none hvacant] at hwalk
  simp only [isDirectory, stat, locate, hwalk, bind, Except.bind]
  rfl

/-- A directory is made where nothing stands. -/
lemma EntryIn.makeDirectory (h : t.EntryIn path directory name)
    (hvacant : t.node? (directory ++ [name]) = none) :
    t.makeDirectory path = .ok (t.set (directory ++ [name]) .directory) := by
  obtain ⟨parts, _, hlast, hwalk⟩ := h.walkNames (by simp [hvacant])
  simp only [FileTree.makeDirectory, h.fits.hasNul, Bool.false_eq_true, ↓reduceIte, hlast, hwalk,
    landingAt_none hvacant]
  rfl

/-- A file is written where nothing or a file stands. -/
lemma EntryIn.write (h : t.EntryIn path directory name) {data : ByteArray}
    (hnode : t.node? (directory ++ [name]) = none ∨
      ∃ before, t.node? (directory ++ [name]) = some (.file before newFileMode)) :
    t.write path data = .ok (t.set (directory ++ [name]) (.file data newFileMode)) := by
  have hlink : ∀ target, t.node? (directory ++ [name]) ≠ some (.link target) := by
    intro target
    rcases hnode with e | ⟨before, e⟩ <;> simp [e]
  obtain ⟨parts, _, hlast, hwalk⟩ := h.walkNames hlink
  simp only [FileTree.write, h.fits.hasNul, Bool.false_eq_true, ↓reduceIte, hlast, hwalk]
  rcases hnode with e | ⟨before, e⟩
  · rw [landingAt_none e]
    rfl
  · rw [landingAt_some e]
    simp only [bind, Except.bind, e]
    rfl

/-! ## Where a directory is missing -/

/-- A path is not found when a directory on its way is missing. -/
lemma Fits.makeDirectory_missing (hfits : Fits path) {above more : List String} {mid : Place}
    (hnames : Path.names path = above ++ name :: more) (hmore : more ≠ [])
    (henters : t.Enters (start t.workingDirectory path) above mid)
    (hname : name ≠ "..") (hsize : FileName.size name ≤ maxName)
    (hvacant : t.node? (mid ++ [name]) = none) : t.makeDirectory path = .error .notFound := by
  have hproper : Path.proper (lastStep path).1 = above ++ name :: more := by
    rw [proper_lastStep, hnames]
  obtain ⟨front, rest, hparts, rfl, rfl⟩ := exists_split_of_proper hproper
  have hentry : ¬ (name = "" ∨ name = ".") := by
    have hmem : name ∈ Path.names path := by simp [hnames]
    obtain ⟨_, hne, hdot⟩ := Path.mem_proper.1 hmem
    exact fun h => h.elim hne hdot
  have hrest : rest.all (· = "") = false := by
    obtain ⟨s, hs⟩ := List.exists_mem_of_ne_nil _ hmore
    obtain ⟨hs, hne, _⟩ := Path.mem_proper.1 hs
    rw [List.all_eq_false]
    exact ⟨s, hs, by simpa using hne⟩
  have hlen : front.length + (name :: rest).length ≤ pathLimit + 2 := by
    have := hfits.length_lastStep
    rw [hparts, List.length_append] at this
    omega
  obtain ⟨fuel, hwalk⟩ := hfits.walkNames false hlen henters
  have hwalk' : t.walkNames false path (lastStep path).1 = .error .notFound := by
    rw [hparts, hwalk]
    simp only [walkFrom, hentry, hname, Nat.not_lt.2 hsize, hvacant, hrest, ↓reduceIte,
      Bool.false_eq_true]
  simp only [FileTree.makeDirectory, hfits.hasNul, Bool.false_eq_true, ↓reduceIte, hwalk']
  rfl

end ConfigPack.FileTree
