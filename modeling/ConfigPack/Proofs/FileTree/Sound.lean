import ConfigPack.Proofs.FileTree.Enter
import ConfigPack.Proofs.FileTree.Rooted

/-!
# Sound trees

In a sound tree everything stands in a directory, under a name that a path can hold.  There a path
to a file ends with the name of an entry, and what it passes before its end are directories; so no
path to a file goes on to another file.
-/

namespace ConfigPack

namespace FileTree

variable {t : FileTree}

/-- A tree in which everything stands in a directory and under a name that a path can hold. -/
structure Sound (t : FileTree) : Prop where
  isName : ∀ e ∈ t.nodes, ∀ name ∈ e.1, IsEntryName name ∧ '/' ∉ name.toList
  /-- Each name is that of some bytes. -/
  isValid : ∀ e ∈ t.nodes, ∀ name ∈ e.1, FileName.isValid name = true
  parent : ∀ place name, t.node? (place ++ [name]) ≠ none → t.node? place = some .directory
  working : t.node? t.workingDirectory = some .directory

/-- A tree is sound when each of its nodes stands in a directory under the name of an entry. -/
lemma sound_of_nodes
    (hname : ∀ e ∈ t.nodes, ∀ name ∈ e.1,
      ((name ≠ "" ∧ name ≠ "." ∧ name ≠ "..") ∧ '/' ∉ name.toList) ∧ FileName.isValid name = true)
    (hparent : ∀ e ∈ t.nodes, t.node? e.1.dropLast = some .directory)
    (hworking : t.node? t.workingDirectory = some .directory) : t.Sound := by
  refine ⟨fun e he name hn => ?_, fun e he name hn => (hname e he name hn).2,
    fun place name hnode => ?_, hworking⟩
  · obtain ⟨⟨⟨hempty, hdot, hup⟩, hslash⟩, -⟩ := hname e he name hn
    exact ⟨⟨hempty, hdot, hup⟩, hslash⟩
  · obtain ⟨node, hnode⟩ := Option.ne_none_iff_exists'.1 hnode
    have hparent := hparent _ (mem_nodes (by simp) hnode)
    rwa [List.dropLast_concat] at hparent

/-- In a sound tree every place stands in a directory. -/
lemma Sound.rooted (h : t.Sound) : t.Rooted := ⟨h.parent, h.working⟩

variable {links : Nat} {place p : Place} {ns : List String}

/-- The names on a path that leads somewhere are not too long. -/
lemma Walks.size {follow : Bool} {landing : Landing} (h : t.Walks follow links place ns landing) :
    landing = .found p → ∀ name ∈ Path.proper ns, name = ".." ∨ FileName.size name ≤ maxName := by
  -- each step has looked at the size of the name it takes
  induction h with
  | arrive => intro _ name hname; cases hname
  | stay htrivial _ ih =>
    rw [Path.proper_cons_trivial _ htrivial]
    exact ih
  | up _ ih =>
    intro e name hname
    rw [Path.proper_cons _ (by decide)] at hname
    rcases List.mem_cons.1 hname with rfl | hname
    · exact .inl rfl
    · exact ih e name hname
  | vacant => intro e; cases e
  | enter hentry hsize _ _ ih =>
    intro e name hname
    rw [Path.proper_cons _ hentry.not_trivial] at hname
    rcases List.mem_cons.1 hname with rfl | hname
    · exact .inr hsize
    · exact ih e name hname
  | file hentry hsize =>
    intro _ name hname
    rw [Path.proper_cons _ hentry.not_trivial] at hname
    rcases List.mem_cons.1 hname with rfl | hname
    · exact .inr hsize
    · cases hname
  | stop hentry hsize =>
    intro _ name hname
    rw [Path.proper_cons _ hentry.not_trivial] at hname
    rcases List.mem_cons.1 hname with rfl | hname
    · exact .inr hsize
    · cases hname
  | follow hentry hsize _ _ _ _ ih =>
    intro e name hname
    rw [Path.proper_cons _ hentry.not_trivial] at hname
    rcases List.mem_cons.1 hname with rfl | hname
    · exact .inr hsize
    · refine ih e name ?_
      rw [Path.proper_append]
      exact List.mem_append_right _ hname

/-- What a path passes before its end is a directory. -/
lemma Walks.directory {landing : Landing} (hsound : t.Sound)
    (h : t.Walks true links place ns landing) :
    ∀ {a b : List String}, landing = .found p → t.node? place = some .directory →
      Path.proper ns = a ++ b → b ≠ [] →
      ∃ mid, t.Leads place a mid ∧ t.node? mid = some .directory := by
  -- on the walk; where the front is used up the walk stands in a directory
  induction h with
  | arrive =>
    intro a b _ _ hsplit hb
    exact absurd (List.append_eq_nil_iff.1 hsplit.symm).2 hb
  | stay htrivial _ ih =>
    rw [Path.proper_cons_trivial _ htrivial]
    exact ih
  | @up _ place _ _ _ ih =>
    intro a b e hdir hsplit hb
    rw [Path.proper_cons _ (by decide)] at hsplit
    cases a with
    | nil => exact ⟨place, .here, hdir⟩
    | cons _ a =>
      injection hsplit with hname hsplit
      subst hname
      obtain ⟨mid, hleads, hmid⟩ := ih e (hsound.rooted.dropLast hdir) hsplit hb
      exact ⟨mid, .up hleads, hmid⟩
  | vacant => intro a b e; cases e
  | @enter _ place _ _ _ hentry _ hnode _ ih =>
    intro a b e hdir hsplit hb
    rw [Path.proper_cons _ hentry.not_trivial] at hsplit
    cases a with
    | nil => exact ⟨place, .here, hdir⟩
    | cons _ a =>
      injection hsplit with hname hsplit
      subst hname
      obtain ⟨mid, hleads, hmid⟩ := ih e hnode hsplit hb
      exact ⟨mid, .down hentry.ne_up (by simp [hnode]) hleads, hmid⟩
  | @file _ place _ _ _ hentry =>
    intro a b _ hdir hsplit hb
    rw [Path.proper_cons _ hentry.not_trivial] at hsplit
    cases a with
    | nil => exact ⟨place, .here, hdir⟩
    | cons _ a =>
      injection hsplit with _ hsplit
      exact absurd (List.append_eq_nil_iff.1 hsplit.symm).2 hb
  | stop _ _ _ hf => cases hf
  | @follow _ place _ target rest _ hentry _ hnode _ _ _ ih =>
    intro a b e hdir hsplit hb
    rw [Path.proper_cons _ hentry.not_trivial] at hsplit
    cases a with
    | nil => exact ⟨place, .here, hdir⟩
    | cons _ a =>
      injection hsplit with hname hsplit
      subst hname
      -- the target of the link belongs to the front
      have hall : Path.proper (steps target ++ rest) = (Path.names target ++ a) ++ b := by
        rw [Path.proper_append, Path.proper_steps, hsplit, List.append_assoc]
        rfl
      obtain ⟨mid, hleads, hmid⟩ := ih e (node?_start hdir target) hall hb
      exact ⟨mid, .follow hentry.ne_up hnode hleads, hmid⟩

/-! ## Paths to files -/

/-- `t.Reaches path place`: by the rules of walks a path without a zero character leads to a
place. -/
structure Reaches (t : FileTree) (path : String) (place : Place) : Prop where
  hasNul : Path.hasNul path = false
  walks : t.Walks true maxLinks (start t.workingDirectory path) (steps path) (.found place)

/-- A path that leads somewhere can be taken and is walked by the rules. -/
lemma walks_of_locate {path : String} (h : t.locate path = .ok p) :
    Fits path ∧ t.Walks true maxLinks (start t.workingDirectory path) (steps path) (.found p) := by
  rw [locate] at h
  rcases hw : t.walk true path with e | landing
  · rw [hw] at h
    cases h
  rw [hw] at h
  obtain rfl : landing = .found p := by
    cases landing with
    | found place =>
      cases h
      rfl
    | missing => cases h
  rw [walk] at hw
  split at hw
  · cases hw
  next hnul => exact ⟨fits_of_walkNames (by simpa using hnul) hw, walks_of_walkNames hw⟩

/-- A path reaches where it is located. -/
lemma reaches_of_locate {path : String} (h : t.locate path = .ok p) : t.Reaches path p :=
  ⟨(walks_of_locate h).1.hasNul, (walks_of_locate h).2⟩

/-- A path to a file ends with the name of an entry. -/
lemma Sound.endsIn (hsound : t.Sound) {path : String} {data : ByteArray} {mode : Nat}
    (h : t.Reaches path p) (hfile : t.node? p = some (.file data mode)) :
    ∃ above last, Path.EndsIn path above last ∧ IsEntryName last := by
  obtain ⟨front, last, hsteps, hlast⟩ := h.walks.endsIn hsound.rooted (by simp)
    (by simp [Landing.place, hfile]) (node?_start hsound.working path)
  obtain ⟨above, habove⟩ := List.getLast?_eq_some_iff.1 (getLast?_segments hlast.ne_empty hsteps)
  exact ⟨_, last, ⟨above, habove, rfl⟩, hlast⟩

/-- No path to a file goes on to something else. -/
lemma Sound.eq_of_prefix (hsound : t.Sound) {path path' : String} {place place' : Place}
    {data : ByteArray} {mode : Nat} (h : t.Reaches path place)
    (hfile : t.node? place = some (.file data mode)) (h' : t.Reaches path' place')
    (habs : Path.isAbsolute path = Path.isAbsolute path')
    (hpre : Path.names path <+: Path.names path') :
    Path.names path = Path.names path' ∧ place = place' := by
  have hwalks := h.walks
  have hwalks' := h'.walks
  have hleads : t.Leads (start t.workingDirectory path) (Path.names path) place := by
    have := hwalks.leads
    rwa [Path.proper_steps] at this
  have hleads' : t.Leads (start t.workingDirectory path) (Path.names path') place' := by
    have := hwalks'.leads
    rwa [Path.proper_steps, ← start_eq habs] at this
  obtain ⟨more, hmore⟩ := hpre
  by_cases hnil : more = []
  · rw [hnil, List.append_nil] at hmore
    rw [hmore] at hleads
    exact ⟨hmore, hleads.unique hleads'⟩
  · -- the file would be a directory on the way
    have hproper : Path.proper (steps path') = Path.names path ++ more := by
      rw [Path.proper_steps, hmore]
    obtain ⟨mid, hmid, hdir⟩ :=
      hwalks'.directory hsound rfl (node?_start hsound.working path') hproper hnil
    rw [← start_eq habs] at hmid
    rw [← hleads.unique hmid, hfile] at hdir
    cases hdir

end FileTree

end ConfigPack
