import ConfigPack.Proofs.FileTree.Change
import ConfigPack.Proofs.Path.Parent

/-!
# What file operations do

Each operation that writes is described by the places at which it puts nodes.  Directories are made
at vacant places on the way of a path, and a file that is replaced is put at the entry that its path
names.
-/

namespace ConfigPack.FileTree

variable {t t' : FileTree}

/-! ## Entries -/

/-- `t.HasEntry path directory name`: a path passes to a directory and names an entry there. -/
def HasEntry (t : FileTree) (path : String) (directory : Place) (name : String) : Prop :=
  ∃ above, Path.names path = above ++ [name] ∧ IsEntryName name ∧
    t.Passes (start t.workingDirectory path) above directory

/-- What a path has as its entry is no dot and not empty. -/
lemma HasEntry.isEntryName {path : String} {directory : Place} {name : String}
    (h : t.HasEntry path directory name) : IsEntryName name := by
  obtain ⟨_, _, hname, _⟩ := h
  exact hname

/-- An entry after a change is where the path has led before it. -/
lemma HasEntry.entryOf {path : String} {directory : Place} {name : String}
    (h : t'.HasEntry path directory name) (he : t.Evolves t') :
    t.EntryOf path (directory ++ [name]) := by
  obtain ⟨above, hnames, hname, hp⟩ := h
  refine ⟨above, name, directory, hnames, hname.ne_up, ?_, rfl⟩
  rw [← he.workingDirectory]
  exact he.leads hp

/-- The names of a path as an operation on directory entries sees them. -/
lemma lastStep_fst (path : String) :
    (lastStep path).1 = (Path.segments path).filter (· ≠ "") := by
  have hne : ∀ s ∈ (Path.segments path).filter (· ≠ ""), s ≠ "" := by
    intro s hs
    simpa using (List.mem_filter.1 hs).2
  by_cases h : (Path.segments path).getLast? = some ""
  · have hs : steps path = (Path.segments path).filter (· ≠ "") ++ [""] := by
      simp only [steps, h, ↓reduceIte]
    simp only [lastStep, hs, List.getLast?_concat, List.dropLast_concat, decide_true, ↓reduceIte]
    split <;> rfl
  · have hs : steps path = (Path.segments path).filter (· ≠ "") := by
      simp only [steps, h, ↓reduceIte]
    have hl : ((Path.segments path).filter (· ≠ "")).getLast? ≠ some "" :=
      fun he => hne "" (List.mem_of_getLast? he) rfl
    simp only [lastStep, hs, hl, decide_false, ↓reduceIte]
    split <;> rfl

/-- The steps in front of the last one have the names of the path. -/
lemma proper_lastStep (path : String) : Path.proper (lastStep path).1 = Path.names path := by
  rw [lastStep_fst, Path.proper, List.filter_filter, Path.names, Path.proper]
  congr 1
  funext s
  by_cases hs : s = "" <;> simp [Path.isTrivial, hs]

/-- An operation on a directory entry sees the last name of its path as one. -/
lemma lastStep_name {path : String} {parts : List String} {slash : Bool}
    (h : lastStep path = (parts, .name slash)) :
    ∃ above last, parts = above ++ [last] ∧ IsEntryName last ∧
      Path.names path = Path.proper above ++ [last] := by
  have hparts : (lastStep path).1 = parts := by rw [h]
  have hlast : ∃ last, parts.getLast? = some last ∧ last ≠ "." ∧ last ≠ ".." := by
    simp only [lastStep] at h hparts
    split at h
    · cases h
    next last hl =>
      injection h with h1 h2
      rw [h1] at hl
      refine ⟨last, hl, ?_⟩
      by_cases hd : last = "." ∨ last = ".."
      · rw [if_pos hd] at h2
        cases h2
      · exact ⟨fun e => hd (.inl e), fun e => hd (.inr e)⟩
  obtain ⟨last, hl, hdot, hup⟩ := hlast
  obtain ⟨above, rfl⟩ := List.getLast?_eq_some_iff.1 hl
  have hne : last ≠ "" := by
    have hm : last ∈ (Path.segments path).filter (· ≠ "") := by
      rw [← lastStep_fst, hparts]
      simp
    simpa using (List.mem_filter.1 hm).2
  have hentry : IsEntryName last := ⟨hne, hdot, hup⟩
  refine ⟨above, last, rfl, hentry, ?_⟩
  rw [← proper_lastStep, hparts, Path.proper_append, Path.proper_cons _ hentry.not_trivial]
  rfl

/-- The names of a path that no slash ends are all its steps. -/
lemma lastStep_steps {path : String} {parts : List String}
    (h : lastStep path = (parts, .name false)) : parts = steps path := by
  by_cases hs : (steps path).getLast? = some ""
  · simp only [lastStep, hs, decide_true, ↓reduceIte] at h
    split at h
    · cases h
    · injection h with _ h
      split at h <;> cases h
  · simp only [lastStep, hs, decide_false, ↓reduceIte] at h
    split at h
    · cases h
    · injection h with h _
      exact h.symm

/-- A walk that an operation on a directory entry takes ends at that entry. -/
lemma hasEntry_of_walkNames {path : String} {parts : List String} {slash : Bool}
    {landing : Landing} (hlast : lastStep path = (parts, .name slash))
    (h : t.walkNames false path parts = .ok landing) :
    ∃ directory name, t.HasEntry path directory name ∧ landing = t.landingAt directory name ∧
      parts.getLast? = some name := by
  obtain ⟨above, last, rfl, hentry, hnames⟩ := lastStep_name hlast
  obtain ⟨directory, hp, hl⟩ := (walks_of_walkNames h).entry rfl hentry
  exact ⟨directory, last, ⟨_, hnames, hentry, hp⟩, hl, List.getLast?_concat⟩

/-- The entry that such an operation works on is that of the last segment. -/
lemma getLast?_segments {path last : String} {above : List String} (hlast : last ≠ "")
    (h : steps path = above ++ [last]) : (Path.segments path).getLast? = some last := by
  by_cases hs : (Path.segments path).getLast? = some ""
  · simp only [steps, hs, ↓reduceIte] at h
    have := congrArg List.getLast? h
    simp only [List.getLast?_concat, Option.some.injEq] at this
    exact absurd this.symm hlast
  · simp only [steps, hs, ↓reduceIte] at h
    obtain ⟨s, he⟩ := Option.ne_none_iff_exists'.1
      (mt List.getLast?_eq_none_iff.1 (Path.segments_ne_nil path))
    obtain ⟨front, hf⟩ := List.getLast?_eq_some_iff.1 he
    have hne : s ≠ "" := fun e => hs (e ▸ he)
    rw [hf, List.filter_append, List.filter_cons_of_pos (by simpa using hne)] at h
    have := congrArg List.getLast? h
    simp only [List.filter_nil, List.getLast?_concat, Option.some.injEq] at this
    rw [he, this]

/-! ## Directories -/

/-- A directory is made at the entry of a path, where nothing stood. -/
lemma makeDirectory_ok {path : String} (h : t.makeDirectory path = .ok t') :
    ∃ directory name, t.HasEntry path directory name ∧ t.node? (directory ++ [name]) = none ∧
      t' = t.set (directory ++ [name]) .directory := by
  simp only [makeDirectory] at h
  split at h
  · cases h
  rcases hl : lastStep path with ⟨parts, last⟩
  rw [hl] at h
  simp only at h
  rcases hw : t.walkNames false path parts with e | landing
  · rw [hw] at h
    cases h
  · rw [hw] at h
    cases landing with
    | found place => cases h
    | missing directory name slash =>
      cases last with
      | special => cases h
      | name slash' =>
        cases h
        obtain ⟨directory', name', he, hlanding, _⟩ := hasEntry_of_walkNames hl hw
        rcases hn : t.node? (directory' ++ [name']) with _ | node
        · rw [landingAt_none hn] at hlanding
          cases hlanding
          exact ⟨_, _, he, hn, rfl⟩
        · rw [landingAt_some hn] at hlanding
          cases hlanding

/-- The places that a path passes on its way, its own included. -/
def OnWay (t : FileTree) (path : String) (place : Place) : Prop :=
  ∃ above name directory,
    above ++ [name] <+: Path.names path ∧ name ≠ ".." ∧
      t.Leads (start t.workingDirectory path) above directory ∧ place = directory ++ [name]

/-- The places to which a path and the paths on its way lead. -/
def Passing (t : FileTree) (path : String) (place : Place) : Prop :=
  ∃ front, front <+: Path.names path ∧ t.Leads (start t.workingDirectory path) front place

/-- A vacant place on the way of a path is one to which it leads. -/
lemma OnWay.passing {path : String} {place : Place} (h : t.OnWay path place)
    (hvacant : t.node? place = none) : t.Passing path place := by
  obtain ⟨above, name, directory, hpre, hup, hl, rfl⟩ := h
  exact ⟨_, hpre, hl.append (.down hup (by simp [hvacant]) .here)⟩

/-- A path passes the place that it leads to. -/
lemma LeadsTo.passing {path : String} {place : Place} (h : t.LeadsTo path place) :
    t.Passing path place :=
  ⟨_, List.prefix_rfl, h⟩

/-- With the same links it passes the same places. -/
lemma SameLinks.passing {path : String} {place : Place} (h : t.SameLinks t')
    (hp : t.Passing path place) : t'.Passing path place := by
  obtain ⟨front, hpre, hl⟩ := hp
  refine ⟨front, hpre, ?_⟩
  rw [h.workingDirectory]
  exact h.leads hl

/-- Whether a path is on the way to another. -/
def IsAncestor (above path : String) : Prop :=
  Path.names above <+: Path.names path ∧ Path.isAbsolute above = Path.isAbsolute path

/-- Paths that are both absolute or both relative start in one directory. -/
lemma start_eq {directory : Place} {above path : String}
    (h : Path.isAbsolute above = Path.isAbsolute path) :
    start directory above = start directory path := by
  rw [start, start, h]

/-- What an ancestor passes is passed by the path. -/
lemma IsAncestor.passing {above path : String} {place : Place} (h : IsAncestor above path)
    (hp : t.Passing above place) : t.Passing path place := by
  obtain ⟨front, hpre, hl⟩ := hp
  exact ⟨front, hpre.trans h.1, start_eq h.2 ▸ hl⟩

/-- The parent of a path is an ancestor. -/
lemma isAncestor_of_parent {above path : String} (h : Path.parent? path = some above) :
    IsAncestor above path := by
  obtain ⟨hnames, habs⟩ := Path.names_parent h
  exact ⟨hnames ▸ List.dropLast_prefix _, habs⟩

/-- So are all paths above it. -/
lemma isAncestor_of_mem_ancestors {a : String} :
    ∀ {fuel : Nat} {path : String}, a ∈ ancestors fuel path → IsAncestor a path
  | 0, _, h => by simp [ancestors] at h
  | fuel + 1, path, h => by
    rcases List.mem_cons.1 h with rfl | h
    · exact ⟨List.prefix_rfl, rfl⟩
    · split at h
      next above hp =>
        obtain ⟨hn, ha⟩ := isAncestor_of_mem_ancestors h
        obtain ⟨hn', ha'⟩ := Path.names_parent hp
        exact ⟨hn.trans (hn' ▸ List.dropLast_prefix _), ha.trans ha'⟩
      next => cases h

/-- A directory on the way of a path is made at a vacant place of that way. -/
lemma makeDirectory_grows {t₀ : FileTree} {above path : String} (hwork : t₀.Evolves t)
    (ha : IsAncestor above path) (h : t.makeDirectory above = .ok t') :
    t.Grows (t₀.OnWay path) t' := by
  obtain ⟨directory, name, he, hn, rfl⟩ := makeDirectory_ok h
  refine Grows.set_directory (by simp) ?_ hn
  obtain ⟨front, last, directory', hnames, hup, hl, hplace⟩ := he.entryOf hwork
  refine ⟨front, last, directory', hnames ▸ ha.1, hup, ?_, hplace⟩
  rw [← start_eq ha.2]
  exact hl

/-- To look for missing directories makes only directories on the way. -/
lemma missingAncestors_grows {t₀ : FileTree} {path : String} :
    ∀ {above missing : List String} {t t' : FileTree} {missing' : List String},
      t₀.Evolves t → (∀ a ∈ above ++ missing, IsAncestor a path) →
      t.missingAncestors above missing = .ok (t', missing') →
      t.Grows (t₀.OnWay path) t' ∧ ∀ a ∈ missing', IsAncestor a path
  | [], missing, t, t', missing', _, ha, h => by
    cases h
    exact ⟨.refl _, ha⟩
  | first :: above, missing, t, t', missing', hwork, ha, h => by
    have hrest : ∀ a ∈ above ++ (first :: missing), IsAncestor a path := by
      intro a hm
      refine ha a ?_
      simp only [List.cons_append, List.mem_cons, List.mem_append] at hm ⊢
      tauto
    have hmissing : ∀ a ∈ missing, IsAncestor a path :=
      fun a hm => ha a (List.mem_append_right _ hm)
    simp only [missingAncestors] at h
    split at h
    · cases h
      exact ⟨.refl _, hmissing⟩
    · split at h
      next tree hd =>
        cases h
        exact ⟨makeDirectory_grows hwork (ha first (by simp)) hd, hmissing⟩
      next => exact missingAncestors_grows hwork hrest h
      next =>
        split at h
        · cases h
          exact ⟨.refl _, hmissing⟩
        · cases h
      next => cases h

/-- So does making each of them. -/
lemma makeEach_grows {t₀ : FileTree} {path : String} :
    ∀ {paths : List String} {t : FileTree}, t₀.Evolves t → (∀ a ∈ paths, IsAncestor a path) →
      t.Grows (t₀.OnWay path) (t.makeEach paths).1
  | [], t, _, _ => .refl _
  | first :: rest, t, hwork, ha => by
    have hrest : ∀ a ∈ rest, IsAncestor a path := fun a hm => ha a (List.mem_cons_of_mem _ hm)
    simp only [makeEach]
    split
    next tree hd =>
      have hg := makeDirectory_grows hwork (ha first List.mem_cons_self) hd
      exact hg.trans (makeEach_grows (hwork.trans hg.evolves) hrest)
    next =>
      split
      · exact makeEach_grows hwork hrest
      · exact .refl _

/-- Directories are made only at vacant places on the way of their path, also when a later one is
refused. -/
lemma makeDirectories_grows (t : FileTree) (path : String) :
    t.Grows (t.OnWay path) (t.makeDirectories path).1 := by
  simp only [makeDirectories]
  split
  next => exact .refl _
  next tree missing h =>
    obtain ⟨hg, hm⟩ := missingAncestors_grows (.refl t) (fun a ha => by
      rw [List.append_nil] at ha
      exact isAncestor_of_mem_ancestors ha) h
    exact hg.trans (makeEach_grows hg.evolves hm)

/-! ## Files -/

/-- A file is written where a walk along the names of its path ends, which no slash follows. -/
lemma write_lands {path : String} {data : ByteArray} (h : t.write path data = .ok t') :
    ∃ landing mode, t.Walks true maxLinks (start t.workingDirectory path) (lastStep path).1 landing ∧
      (∀ directory name, landing ≠ .missing directory name true) ∧ landing.place ≠ [] ∧
      t.node? landing.place ≠ some .directory ∧
      (∀ target, t.node? landing.place ≠ some (.link target)) ∧
      t' = t.set landing.place (.file data mode) := by
  simp only [write] at h
  split at h
  · cases h
  rcases hl : lastStep path with ⟨parts, last⟩
  rw [hl] at h
  simp only at h
  rcases hw : t.walkNames true path parts with e | landing
  · rw [hw] at h
    cases h
  -- a file is written where the walk ends, whether it is found there or missing
  have hwalks := walks_of_walkNames hw
  rw [hw] at h
  simp only [bind, Except.bind] at h
  split at h
  · cases h
  · split at h
    next place =>
      split at h
      next e =>
        cases h
        refine ⟨.found place, _, hwalks, by simp, ?_, by simp [Landing.place, e],
          by simp [Landing.place, e], rfl⟩
        intro hroot
        rw [Landing.place] at hroot
        simp [hroot, node?] at e
      next => cases h
    next directory name slash =>
      split at h
      · cases h
      next hslash =>
        cases h
        have hn : t.node? (Landing.missing directory name slash).place = none :=
          hwalks.vacant_of_missing rfl
        refine ⟨.missing directory name slash, newFileMode, hwalks, ?_, by simp [Landing.place],
          by simp [hn], by simp [hn], rfl⟩
        rintro _ _ ⟨⟩
        exact hslash rfl

/-- Whether a write is refused, and why, does not depend on its bytes. -/
lemma write_refusal (t : FileTree) (path : String) (data data' : ByteArray) :
    (t.write path data).map (fun _ => ()) = (t.write path data').map (fun _ => ()) := by
  simp only [write]
  split
  · rfl
  rcases t.walkNames true path (lastStep path).1 with e | landing
  · rfl
  simp only [bind, Except.bind]
  split
  · rfl
  cases landing with
  | found place =>
    rcases hnode : t.node? place with _ | node
    · simp only [hnode]
    · cases node with
      | file => simp only [hnode]; rfl
      | link => simp only [hnode]
      | directory => simp only [hnode]
  | missing directory name slash => cases slash <;> rfl

/-- Where some bytes can be written, any others can. -/
lemma exists_write {path : String} {data : ByteArray} (h : (t.write path data).isOk = true)
    (data' : ByteArray) : ∃ t', t.write path data' = .ok t' := by
  have hsame := write_refusal t path data data'
  rcases hwrite : t.write path data with e | t'
  · rw [hwrite] at h
    cases h
  rcases hwrite' : t.write path data' with e | t'
  · rw [hwrite, hwrite'] at hsame
    cases hsame
  · exact ⟨t', rfl⟩

/-- A file is written in place where the names of its path lead. -/
lemma write_ok {path : String} {data : ByteArray} (h : t.write path data = .ok t') :
    ∃ place mode, t.LeadsTo path place ∧ place ≠ [] ∧ t.node? place ≠ some .directory ∧
      (∀ target, t.node? place ≠ some (.link target)) ∧ t' = t.set place (.file data mode) := by
  obtain ⟨landing, mode, hwalks, _, hroot, hdir, hlink, hset⟩ := write_lands h
  have hleads : t.LeadsTo path landing.place := by
    have := hwalks.leads
    rwa [proper_lastStep] at this
  exact ⟨landing.place, mode, hleads, hroot, hdir, hlink, hset⟩

end ConfigPack.FileTree
