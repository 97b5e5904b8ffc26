import ConfigPack.Proofs.FileTree.Operations

/-!
# Rooted trees

In a rooted tree everything stands in a directory.  Creating directories and writing files keep it
rooted, and there a path must end with the name of an entry to be written to: one that ends with a
dot leads to a directory or nowhere.
-/

namespace ConfigPack.FileTree

variable {t t' : FileTree} {links : Nat} {place goal : Place} {ns : List String}
  {landing : Landing} {path : String}

/-- A tree in which everything stands in a directory, the working directory included. -/
structure Rooted (t : FileTree) : Prop where
  parent : ∀ place name, t.node? (place ++ [name]) ≠ none → t.node? place = some .directory
  working : t.node? t.workingDirectory = some .directory

/-- Above a directory there is one. -/
lemma Rooted.dropLast (h : t.Rooted) (hdir : t.node? place = some .directory) :
    t.node? place.dropLast = some .directory := by
  rcases List.eq_nil_or_concat place with rfl | ⟨above, name, rfl⟩
  · exact hdir
  · rw [List.concat_eq_append] at hdir ⊢
    rw [List.dropLast_concat]
    exact h.parent above name (by simp [hdir])

/-- A path starts in a directory. -/
lemma node?_start (hdir : t.node? place = some .directory) (path : String) :
    t.node? (start place path) = some .directory := by
  rw [FileTree.start]
  split
  · rfl
  · exact hdir

/-- Going through directories ends at one. -/
lemma Passes.directory (h : t.Rooted) (hp : t.Passes place ns goal)
    (hdir : t.node? place = some .directory) : t.node? goal = some .directory := by
  induction hp with
  | here => exact hdir
  | up _ ih => exact ih (h.dropLast hdir)
  | down _ hnode _ ih => exact ih hnode
  | @follow _ _ target _ _ _ _ _ ih => exact ih (node?_start hdir target)

/-- Where a walk ends there is a directory above. -/
lemma Walks.parent {follow : Bool} (h : t.Rooted) (hw : t.Walks follow links place ns landing)
    (hdir : t.node? place = some .directory) :
    t.node? landing.place.dropLast = some .directory := by
  induction hw with
  | arrive => exact h.dropLast hdir
  | stay _ _ ih => exact ih hdir
  | up _ ih => exact ih (h.dropLast hdir)
  | vacant =>
    rw [Landing.place, List.dropLast_concat]
    exact hdir
  | enter _ _ hnode _ ih => exact ih hnode
  | file =>
    rw [Landing.place, List.dropLast_concat]
    exact hdir
  | stop =>
    rw [Landing.place, List.dropLast_concat]
    exact hdir
  | @follow _ _ _ target _ _ _ _ _ _ _ _ ih => exact ih (node?_start hdir target)

/-- A walk that does not end at a directory ends with the name of an entry, slashes apart. -/
lemma Walks.endsIn (h : t.Rooted) (hw : t.Walks true links place ns landing) :
    (∀ directory name, landing ≠ .missing directory name true) →
      t.node? landing.place ≠ some .directory → t.node? place = some .directory →
        ∃ front name, ns = front ++ [name] ∧ IsEntryName name := by
  -- the last step of the walk takes a name, or it would end in a directory
  induction hw with
  | arrive =>
    intro _ hend hdir
    exact absurd hdir hend
  | @stay _ _ name _ _ _ _ ih =>
    intro hslash hend hdir
    obtain ⟨front, last, rfl, hlast⟩ := ih hslash hend hdir
    exact ⟨name :: front, last, rfl, hlast⟩
  | up _ ih =>
    intro hslash hend hdir
    obtain ⟨front, last, rfl, hlast⟩ := ih hslash hend (h.dropLast hdir)
    exact ⟨".." :: front, last, rfl, hlast⟩
  | @vacant _ _ name rest hentry _ _ _ =>
    intro hslash _ _
    cases rest with
    | nil => exact ⟨[], name, rfl, hentry⟩
    | cons => exact absurd rfl (hslash _ _)
  | @enter _ _ name _ _ _ _ hnode _ ih =>
    intro hslash hend _
    obtain ⟨front, last, rfl, hlast⟩ := ih hslash hend hnode
    exact ⟨name :: front, last, rfl, hlast⟩
  | file hentry => exact fun _ _ _ => ⟨[], _, rfl, hentry⟩
  | stop _ _ _ hf => cases hf
  | @follow _ _ name target rest _ hentry _ _ _ _ _ ih =>
    intro hslash hend hdir
    obtain ⟨front, last, hsplit, hlast⟩ := ih hslash hend (node?_start hdir target)
    -- when nothing is behind the link, its own name comes last
    rcases List.eq_nil_or_concat rest with rfl | ⟨front', last', rfl⟩
    · exact ⟨[], name, rfl, hentry⟩
    · rw [List.concat_eq_append] at hsplit ⊢
      rw [← List.append_assoc] at hsplit
      obtain ⟨_, hsame⟩ := List.append_inj' hsplit rfl
      cases hsame
      exact ⟨name :: front', last, rfl, hlast⟩

/-! ## Upkeep -/

/-- A node put into a directory, in the place of another directory only when it is one itself. -/
lemma Rooted.set (h : t.Rooted) {node : Node} (hne : place ≠ [])
    (hparent : t.node? place.dropLast = some .directory)
    (hnode : t.node? place = some .directory → node = .directory) : (t.set place node).Rooted := by
  have hkept : ∀ q, t.node? q = some .directory → (t.set place node).node? q = some .directory := by
    intro q hq
    rw [node?_set hne]
    split
    next e => rw [hnode (e ▸ hq)]
    next => exact hq
  refine ⟨fun q name hq => hkept q ?_, hkept _ h.working⟩
  rw [node?_set hne] at hq
  split at hq
  next e => rwa [← e, List.dropLast_concat] at hparent
  next => exact h.parent q name hq

/-- A directory is made in one. -/
lemma Rooted.makeDirectory (h : t.Rooted) (hmade : t.makeDirectory path = .ok t') : t'.Rooted := by
  obtain ⟨directory, name, ⟨_, _, _, hpasses⟩, _, rfl⟩ := makeDirectory_ok hmade
  refine h.set (by simp) ?_ fun _ => rfl
  rw [List.dropLast_concat]
  exact hpasses.directory h (node?_start h.working path)

/-- So are those that are made to look for missing ones. -/
lemma Rooted.missingAncestors :
    ∀ {above missing missing' : List String} {t t' : FileTree}, t.Rooted →
      t.missingAncestors above missing = .ok (t', missing') → t'.Rooted
  | [], _, _, t, t', h, hmade => by
    cases hmade
    exact h
  | first :: above, _, _, t, t', h, hmade => by
    rw [FileTree.missingAncestors] at hmade
    split at hmade
    · cases hmade
      exact h
    · split at hmade
      next hfirst =>
        cases hmade
        exact h.makeDirectory hfirst
      next => exact Rooted.missingAncestors h hmade
      next =>
        split at hmade
        · cases hmade
          exact h
        · cases hmade
      next => cases hmade

/-- So are several. -/
lemma Rooted.makeEach :
    ∀ {paths : List String} {t : FileTree}, t.Rooted → (t.makeEach paths).1.Rooted
  | [], _, h => h
  | first :: rest, t, h => by
    rw [FileTree.makeEach]
    split
    next hfirst => exact Rooted.makeEach (h.makeDirectory hfirst)
    next =>
      split
      · exact Rooted.makeEach h
      · exact h

/-- So are all above a path. -/
lemma Rooted.makeDirectories (h : t.Rooted) (path : String) :
    (t.makeDirectories path).1.Rooted := by
  rw [FileTree.makeDirectories]
  split
  next => exact h
  next hmade => exact (h.missingAncestors hmade).makeEach

/-- A file is written where a walk along the names of its path ends. -/
lemma Rooted.write (h : t.Rooted) {data : ByteArray} (hwrite : t.write path data = .ok t') :
    t'.Rooted ∧ ∃ front name, (lastStep path).1 = front ++ [name] ∧ IsEntryName name := by
  obtain ⟨landing, mode, hwalks, hslash, hroot, hdir, _, rfl⟩ := write_lands hwrite
  have hstart := node?_start h.working path
  refine ⟨h.set hroot (hwalks.parent h hstart) fun e => absurd e hdir, ?_⟩
  exact hwalks.endsIn h hslash hdir hstart

end ConfigPack.FileTree
