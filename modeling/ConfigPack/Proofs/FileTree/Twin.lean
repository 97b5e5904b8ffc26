import ConfigPack.Proofs.FileTree.Replace

/-!
# Trees that differ in one directory

Two trees are twins when they differ at most below one place.  An operation on a path that never
comes to that place, not even on the way through a link, gives the same result in both and leaves
twins behind.
-/

namespace ConfigPack.FileTree

variable {t₀ t t' : FileTree} {apart : Place}

/-- `tree.Visits place names q`: a walk along names may come to a place. -/
inductive Visits (tree : FileTree) : Place → List String → Place → Prop where
  | here {place names} : Visits tree place names place
  | up {place rest q} : Visits tree place.dropLast rest q → Visits tree place (".." :: rest) q
  | down {place name rest q} :
    name ≠ ".." →
    (∀ target, tree.node? (place ++ [name]) ≠ some (.link target)) →
    Visits tree (place ++ [name]) rest q →
    Visits tree place (name :: rest) q
  | follow {place name target rest q} :
    name ≠ ".." →
    tree.node? (place ++ [name]) = some (.link target) →
    Visits tree (start place target) (Path.names target ++ rest) q →
    Visits tree place (name :: rest) q

/-- A walk along more names comes to the same places and to others behind them. -/
lemma Visits.append {place names q} (h : t.Visits place names q) (more : List String) :
    t.Visits place (names ++ more) q := by
  induction h with
  | here => exact .here
  | up _ ih => exact .up ih
  | down ne nl _ ih => exact .down ne nl ih
  | follow ne e _ ih =>
    rw [List.append_assoc] at ih
    exact .follow ne e ih

/-- A path that never comes to a place or below it. -/
def Avoids (tree : FileTree) (apart : Place) (path : String) : Prop :=
  ∀ q, tree.Visits (start tree.workingDirectory path) (Path.names path) q → ¬ apart <+: q

/-- Above a path that avoids a place all paths do. -/
lemma IsAncestor.avoids {above path : String} (h : IsAncestor above path)
    (ha : t.Avoids apart path) : t.Avoids apart above := by
  obtain ⟨⟨more, hmore⟩, habs⟩ := h
  intro q hq
  apply ha q
  rw [← hmore, ← start_eq habs]
  exact hq.append more

/-- Where no link stands, a walk that never goes upwards comes to places on its way only. -/
lemma Visits.of_linkFree {place names q} (hfree : t.LinkFree []) (h : t.Visits place names q)
    (hup : ".." ∉ names) : q <+: place ++ names := by
  induction h with
  | here => exact List.prefix_append ..
  | up => exact absurd List.mem_cons_self hup
  | down _ _ _ ih =>
    have hrest := ih fun hm => hup (List.mem_cons_of_mem _ hm)
    rwa [List.append_assoc] at hrest
  | follow _ e => exact absurd e (hfree _ _ List.nil_prefix)

/-- Without links a path avoids what its names do not lead into. -/
lemma avoids_of_linkFree {path : String} (hfree : t.LinkFree []) (hup : ".." ∉ Path.names path)
    (h : ¬ apart <+: start t.workingDirectory path ++ Path.names path) : t.Avoids apart path :=
  fun _ hq hbelow => h (hbelow.trans (hq.of_linkFree hfree hup))

/-- Whether a place is below another. -/
def Below (base place : Place) : Prop := base <+: place ∧ place ≠ base

/-- A place outside is not below. -/
lemma not_below_outside {place : Place} (h : ¬ apart <+: place) : ¬ Below apart place :=
  fun hb => h hb.1

/-- An entry is below a place only when its directory is that place or below it. -/
lemma not_below_entry {place : Place} {name : String} (h : ¬ apart <+: place) :
    ¬ Below apart (place ++ [name]) := by
  rintro ⟨hpre, hne⟩
  rcases List.prefix_concat_iff.1 hpre with e | hpre
  · exact hne e.symm
  · exact h hpre

/-- A tree that has evolved, and another that differs from it at most below a place; the working
directory is not there, and has the same temporary files. -/
structure Twin (t₀ : FileTree) (apart : Place) (t t' : FileTree) : Prop where
  evolves : t₀.Evolves t
  workingDirectory : t'.workingDirectory = t.workingDirectory
  working : ¬ Below apart t.workingDirectory
  temporary : ∀ name : TemporaryName,
    t'.node? (t.workingDirectory ++ [name.text]) = t.node? (t.workingDirectory ++ [name.text])
  node : ∀ p, ¬ Below apart p → t'.node? p = t.node? p

/-- Twins stay twins when one node is put at one place into both. -/
lemma Twin.set (h : Twin t₀ apart t t') {place : Place} {node : Node} (hne : place ≠ [])
    (he : t₀.Evolves (t.set place node)) :
    Twin t₀ apart (t.set place node) (t'.set place node) where
  evolves := he
  workingDirectory := h.workingDirectory
  working := h.working
  temporary name := by
    rw [workingDirectory_set, node?_set hne, node?_set hne, h.temporary]
  node p hp := by rw [node?_set hne, node?_set hne, h.node p hp]

/-! ## Walks -/

/-- `t.Clear apart place`: a place is not below another, and not that itself when it is a
directory. -/
def Clear (t : FileTree) (apart place : Place) : Prop :=
  ¬ Below apart place ∧ (t.node? place = some .directory → ¬ apart <+: place)

/-- A walk that avoids the place is the same in both trees and ends clear of it. -/
lemma Twin.walkFrom (h : Twin t₀ apart t t') {follow : Bool} {fuel : Nat} :
    ∀ {links place names},
      (∀ q, t₀.Visits place (Path.proper names) q → ¬ apart <+: q) →
      t'.walkFrom follow fuel links place names = t.walkFrom follow fuel links place names ∧
        ∀ landing, t.walkFrom follow fuel links place names = .ok landing →
          t.Clear apart landing.place := by
  induction fuel with
  | zero =>
    intro links place names _
    simp [FileTree.walkFrom]
  | succ fuel ih =>
    intro links place names hoff
    have hplace : ¬ apart <+: place := hoff place .here
    cases names with
    | nil =>
      refine ⟨rfl, fun landing e => ?_⟩
      simp only [FileTree.walkFrom, Except.ok.injEq] at e
      subst e
      exact ⟨not_below_outside hplace, fun _ => hplace⟩
    | cons name rest =>
      by_cases htrivial : name = "" ∨ name = "."
      · rw [Path.proper_cons_trivial _ htrivial] at hoff
        simp only [FileTree.walkFrom, htrivial, ↓reduceIte]
        exact ih hoff
      rw [Path.proper_cons _ htrivial] at hoff
      by_cases hup : name = ".."
      · subst hup
        simp only [FileTree.walkFrom, htrivial, ↓reduceIte]
        exact ih fun q hq => hoff q (.up hq)
      have hentry : ¬ Below apart (place ++ [name]) := not_below_entry hplace
      simp only [FileTree.walkFrom, htrivial, hup, ↓reduceIte, h.node _ hentry]
      by_cases hsize : FileName.size name > maxName
      · simp [hsize]
      simp only [hsize, ↓reduceIte]
      -- the walk goes on where something stands in the evolved tree
      cases hn : t.node? (place ++ [name]) with
      | none =>
        refine ⟨rfl, fun landing e => ?_⟩
        simp only at e
        split at e
        · cases e
          refine ⟨hentry, fun hdir => ?_⟩
          rw [Landing.place, hn] at hdir
          cases hdir
        · cases e
      | some node =>
        cases node with
        | directory =>
          exact ih fun q hq => hoff q (.down hup (h.evolves.not_link_of_directory hn) hq)
        | file data mode =>
          refine ⟨rfl, fun landing e => ?_⟩
          simp only at e
          split at e
          · cases e
            refine ⟨hentry, fun hdir => ?_⟩
            rw [Landing.place, hn] at hdir
            cases hdir
          · cases e
        | link target =>
          simp only
          split
          · refine ⟨rfl, fun landing e => ?_⟩
            cases e
            refine ⟨hentry, fun hdir => ?_⟩
            rw [Landing.place, hn] at hdir
            cases hdir
          · cases links with
            | zero => simp
            | succ links =>
              simp only
              split
              · simp
              · refine ih fun q hq => hoff q (.follow hup (h.evolves.link hn) ?_)
                rwa [Path.proper_append, Path.proper_steps] at hq

/-- Names are walked alike in twins, and not into what is apart. -/
lemma Twin.walkNames (h : Twin t₀ apart t t') {path : String} (hoff : t₀.Avoids apart path)
    (follow : Bool) {names : List String} (hnames : Path.proper names = Path.names path) :
    t'.walkNames follow path names = t.walkNames follow path names ∧
      ∀ landing, t.walkNames follow path names = .ok landing → t.Clear apart landing.place := by
  simp only [FileTree.walkNames, h.workingDirectory]
  split
  · simp
  · split
    · simp
    · apply h.walkFrom
      intro q hq
      apply hoff q
      rwa [← h.evolves.workingDirectory, ← hnames]

/-- So is a path. -/
lemma Twin.walk (h : Twin t₀ apart t t') {path : String} (hoff : t₀.Avoids apart path)
    (follow : Bool) :
    t'.walk follow path = t.walk follow path ∧
      ∀ landing, t.walk follow path = .ok landing → t.Clear apart landing.place := by
  simp only [FileTree.walk]
  split
  · simp
  · exact h.walkNames hoff follow (Path.proper_steps path)

/-- It is located at one place. -/
lemma Twin.locate (h : Twin t₀ apart t t') {path : String} (hoff : t₀.Avoids apart path) :
    t'.locate path = t.locate path ∧
      ∀ place, t.locate path = .ok place → t.Clear apart place := by
  obtain ⟨hwalk, hplace⟩ := h.walk hoff true
  simp only [FileTree.locate, hwalk]
  refine ⟨trivial, fun place e => ?_⟩
  rcases hw : t.walk true path with e' | landing
  · rw [hw] at e
    cases e
  · rw [hw] at e
    cases landing with
    | missing => cases e
    | found place' =>
      cases e
      exact hplace _ hw

/-- What is there is the same. -/
lemma Twin.stat (h : Twin t₀ apart t t') {path : String} (hoff : t₀.Avoids apart path) :
    t'.stat path = t.stat path := by
  obtain ⟨hlocate, hplace⟩ := h.locate hoff
  rw [FileTree.stat, FileTree.stat, hlocate]
  rcases hl : t.locate path with e | place
  · rfl
  · simp only [bind, Except.bind, h.node place (hplace place hl).1]

/-- So is whether it is a directory. -/
lemma Twin.isDirectory (h : Twin t₀ apart t t') {path : String} (hoff : t₀.Avoids apart path) :
    t'.isDirectory path = t.isDirectory path := by
  rw [FileTree.isDirectory, FileTree.isDirectory, h.stat hoff]

/-- So are its permissions. -/
lemma Twin.mode? (h : Twin t₀ apart t t') {path : String} (hoff : t₀.Avoids apart path) :
    t'.mode? path = t.mode? path := by
  rw [FileTree.mode?, FileTree.mode?, h.stat hoff]

/-- So is what it holds. -/
lemma Twin.read (h : Twin t₀ apart t t') {path : String} (hoff : t₀.Avoids apart path) :
    t'.read path = t.read path := by
  obtain ⟨hlocate, hplace⟩ := h.locate hoff
  rw [FileTree.read, FileTree.read, hlocate]
  rcases hl : t.locate path with e | place
  · rfl
  · simp only [bind, Except.bind, readAt, h.node place (hplace place hl).1]

/-! ## Changes -/

/-- The results of a change in two trees. -/
def SameChange (R : FileTree → FileTree → Prop) (result result' : Except IoError FileTree) : Prop :=
  (∃ t t', result = .ok t ∧ result' = .ok t' ∧ R t t') ∨
    ∃ e, result = .error e ∧ result' = .error e

/-- A directory is made in both twins, or refused in both. -/
lemma Twin.makeDirectory (h : Twin t₀ apart t t') {path : String} (hoff : t₀.Avoids apart path) :
    SameChange (Twin t₀ apart) (t.makeDirectory path) (t'.makeDirectory path) := by
  have hevolves : ∀ {u}, t.makeDirectory path = .ok u → t₀.Evolves u := by
    intro u hu
    obtain ⟨directory, name, _, hvacant, rfl⟩ := makeDirectory_ok hu
    have hgrows : t.Grows (fun _ => True) (t.set (directory ++ [name]) .directory) :=
      .set_directory (by simp) trivial hvacant
    exact h.evolves.trans hgrows.evolves
  simp only [FileTree.makeDirectory] at hevolves ⊢
  split
  · exact .inr ⟨_, rfl, rfl⟩
  next hnul =>
    simp only [hnul] at hevolves
    rcases hl : lastStep path with ⟨parts, last⟩
    have hparts : Path.proper parts = Path.names path := by
      rw [← proper_lastStep, hl]
    -- both walks end in the same place, so the same is made or refused
    obtain ⟨hwalk, _⟩ := h.walkNames hoff false hparts
    simp only [hl] at hevolves
    simp only [hwalk]
    rcases hw : t.walkNames false path parts with e | landing
    · exact .inr ⟨_, rfl, rfl⟩
    simp only [hw] at hevolves
    cases landing with
    | found place => exact .inr ⟨_, rfl, rfl⟩
    | missing directory name slash =>
      cases last with
      | special => exact .inr ⟨_, rfl, rfl⟩
      | name slash' => exact .inl ⟨_, _, rfl, rfl, h.set (by simp) (hevolves rfl)⟩

/-- The ancestors that are missing are the same in both trees. -/
lemma Twin.missingAncestors :
    ∀ {above missing : List String} {t t' : FileTree}, Twin t₀ apart t t' →
      (∀ a ∈ above ++ missing, t₀.Avoids apart a) →
      (∃ u u' missing', t.missingAncestors above missing = .ok (u, missing') ∧
        t'.missingAncestors above missing = .ok (u', missing') ∧ Twin t₀ apart u u' ∧
        ∀ a ∈ missing', t₀.Avoids apart a) ∨
      ∃ e, t.missingAncestors above missing = .error e ∧
        t'.missingAncestors above missing = .error e
  | [], missing, t, t', h, ha => .inl ⟨t, t', missing, rfl, rfl, h, ha⟩
  | first :: above, missing, t, t', h, ha => by
    have hfirst : t₀.Avoids apart first := ha first (by simp)
    have hmissing : ∀ a ∈ missing, t₀.Avoids apart a :=
      fun a hm => ha a (List.mem_append_right _ hm)
    have hrest : ∀ a ∈ above ++ (first :: missing), t₀.Avoids apart a := by
      intro a hm
      refine ha a ?_
      simp only [List.cons_append, List.mem_cons, List.mem_append] at hm ⊢
      tauto
    simp only [FileTree.missingAncestors]
    split
    · exact .inl ⟨t, t', missing, rfl, rfl, h, hmissing⟩
    rcases h.makeDirectory hfirst with ⟨u, u', hu, hu', htwin⟩ | ⟨e, hu, hu'⟩
    · simp only [hu, hu']
      exact .inl ⟨u, u', missing, rfl, rfl, htwin, hmissing⟩
    simp only [hu, hu']
    cases e with
    | notFound => exact missingAncestors h hrest
    | «exists» =>
      simp only [h.isDirectory hfirst]
      split
      · exact .inl ⟨t, t', missing, rfl, rfl, h, hmissing⟩
      · exact .inr ⟨_, rfl, rfl⟩
    | _ => exact .inr ⟨_, rfl, rfl⟩

/-- So are several. -/
lemma Twin.makeEach :
    ∀ {paths : List String} {t t' : FileTree}, Twin t₀ apart t t' →
      (∀ a ∈ paths, t₀.Avoids apart a) →
      (t.makeEach paths).2 = (t'.makeEach paths).2 ∧
        Twin t₀ apart (t.makeEach paths).1 (t'.makeEach paths).1
  | [], t, t', h, _ => ⟨rfl, h⟩
  | first :: rest, t, t', h, ha => by
    have hfirst := ha first List.mem_cons_self
    have hrest : ∀ a ∈ rest, t₀.Avoids apart a := fun a hm => ha a (List.mem_cons_of_mem _ hm)
    simp only [FileTree.makeEach]
    rcases h.makeDirectory hfirst with ⟨u, u', hu, hu', htwin⟩ | ⟨e, hu, hu'⟩
    · simp only [hu, hu']
      exact makeEach htwin hrest
    simp only [hu, hu', h.isDirectory hfirst]
    split
    · exact makeEach h hrest
    · exact ⟨rfl, h⟩

/-- So are all above a path. -/
lemma Twin.makeDirectories (h : Twin t₀ apart t t') {path : String}
    (hoff : t₀.Avoids apart path) :
    (t.makeDirectories path).2 = (t'.makeDirectories path).2 ∧
      Twin t₀ apart (t.makeDirectories path).1 (t'.makeDirectories path).1 := by
  have hall : ∀ a ∈ ancestors (path.utf8ByteSize + 1) path ++ [], t₀.Avoids apart a := by
    intro a ha
    rw [List.append_nil] at ha
    exact (isAncestor_of_mem_ancestors ha).avoids hoff
  simp only [FileTree.makeDirectories]
  rcases h.missingAncestors hall with ⟨u, u', missing, hu, hu', htwin, hmissing⟩ | ⟨e, hu, hu'⟩
  · simp only [hu, hu']
    exact htwin.makeEach hmissing
  · simp only [hu, hu']
    exact ⟨trivial, h⟩

/-- A file is moved to the same place in both trees. -/
lemma Twin.moveTarget (h : Twin t₀ apart t t') {path : String} (hoff : t₀.Avoids apart path) :
    t'.moveTarget path = t.moveTarget path := by
  simp only [FileTree.moveTarget]
  split
  · rfl
  rcases hl : lastStep path with ⟨parts, last⟩
  have hparts : Path.proper parts = Path.names path := by
    rw [← proper_lastStep, hl]
  obtain ⟨hwalk, hplace⟩ := h.walkNames hoff false hparts
  simp only [hwalk]
  rcases hw : t.walkNames false path parts with e | landing
  · rfl
  cases landing with
  | missing => rfl
  | found place => simp only [bind, Except.bind, h.node place (hplace _ hw).1]

/-- The parent of a path with names, by whatever text it goes, is on its way. -/
lemma isAncestor_parentDirectory {path : String} (hne : Path.names path ≠ []) :
    IsAncestor (Path.parentDirectory path) path := by
  obtain ⟨above, habove⟩ := Path.parent?_of_names hne
  have hanc := isAncestor_of_parent habove
  simp only [Path.parentDirectory, habove]
  split
  next he =>
    cases String.isEmpty_iff.1 he
    refine ⟨?_, ?_⟩
    · simp [Path.names, Path.segments, Path.splitFrom, Path.proper, Path.isTrivial]
    · rw [← hanc.2]
      simp [Path.isAbsolute]
  next => exact hanc

/-- A dot names the working directory. -/
lemma locate_dot (t : FileTree) : t.locate "." = .ok t.workingDirectory := by
  have hnul : Path.hasNul "." = false := by decide +kernel
  have hsteps : steps "." = ["."] := by decide +kernel
  have hstart : start t.workingDirectory "." = t.workingDirectory := by
    simp [start, Path.isAbsolute]
  have hsize : FileName.pathSize "." < pathLimit := by decide +kernel
  have hfuel : walkFuel = 172030 + 2 := rfl
  simp [locate, FileTree.walk, FileTree.walkNames, hnul, hsteps, hstart, Nat.not_le.2 hsize, hfuel,
    FileTree.walkFrom, bind, Except.bind, pure, Except.pure]

/-- The directory of a path is the same in both trees, and so are the temporary files in it. -/
lemma Twin.parentDirectory (h : Twin t₀ apart t t') {path : String}
    (hoff : t₀.Avoids apart path) :
    t'.locate (Path.parentDirectory path) = t.locate (Path.parentDirectory path) ∧
      ∀ above, t.locate (Path.parentDirectory path) = .ok above →
        t'.node? above = t.node? above ∧ (t.node? above = some .directory →
          ∀ name : TemporaryName, t'.node? (above ++ [name.text]) = t.node? (above ++ [name.text])) := by
  by_cases hne : Path.names path = []
  · rw [Path.parentDirectory_of_names_nil hne, locate_dot, locate_dot, h.workingDirectory]
    refine ⟨rfl, fun above e => ?_⟩
    cases e
    exact ⟨h.node _ h.working, fun _ => h.temporary⟩
  · obtain ⟨hsame, hclear⟩ := h.locate ((isAncestor_parentDirectory hne).avoids hoff)
    refine ⟨hsame, fun above e => ?_⟩
    obtain ⟨hbelow, hoff⟩ := hclear above e
    exact ⟨h.node _ hbelow, fun hdir name => h.node _ (not_below_entry (hoff hdir))⟩

/-- A temporary file has one place in both twins. -/
lemma Twin.placeOfTemporary (h : Twin t₀ apart t t') {path : String}
    (hoff : t₀.Avoids apart path) (chance : WriteChance) :
    t'.placeOfTemporary chance (Path.parentDirectory path) =
      t.placeOfTemporary chance (Path.parentDirectory path) := by
  have hworking : t'.workingPath = t.workingPath := by
    rw [workingPath, workingPath, h.workingDirectory]
  obtain ⟨hsame, habove⟩ := h.parentDirectory hoff
  have hplace : t'.placeOfNew (Path.parentDirectory path) chance.name.text =
      t.placeOfNew (Path.parentDirectory path) chance.name.text := by
    simp only [placeOfNew, hworking, hsame]
    rcases hlocate : t.locate (Path.parentDirectory path) with e | above
    · rfl
    obtain ⟨hdirectory, htemporary⟩ := habove above hlocate
    simp only [bind, Except.bind, hdirectory]
    split
    · rfl
    split
    · rfl
    split
    next hdir => rw [htemporary hdir]
    next => rfl
  simp only [FileTree.placeOfTemporary, hworking, hplace]

/-- With one chance a file is replaced alike in both trees. -/
lemma Twin.replace (h : Twin t₀ apart t t') {path : String} (hoff : t₀.Avoids apart path)
    (chance : WriteChance) (data : ByteArray) :
    (t.replace chance path data).2 = (t'.replace chance path data).2 ∧
      Twin t₀ apart (t.replace chance path data).1 (t'.replace chance path data).1 := by
  have hworking : t'.workingPath = t.workingPath := by
    rw [workingPath, workingPath, h.workingDirectory]
  simp only [FileTree.replace, h.placeOfTemporary hoff, h.mode? hoff]
  rcases hplace : t.placeOfTemporary chance (Path.parentDirectory path) with e | temporary
  · exact ⟨rfl, h⟩
  obtain ⟨hne, hvacant⟩ := vacant_of_placeOfTemporary hplace
  have hvacant' : t'.node? temporary = none :=
    (vacant_of_placeOfTemporary ((h.placeOfTemporary hoff chance).trans hplace)).2
  -- the two trees are twins also while the temporary file is there
  have hset : ∀ data mode, Twin t₀ apart (t.set temporary (.file data mode))
      (t'.set temporary (.file data mode)) := fun data mode =>
    h.set hne (h.evolves.trans (.set_file hne (by simp [hvacant]) data mode))
  simp only [finishTemporary_eq _ _ _ _ _ hne hvacant, finishTemporary_eq _ _ _ _ _ hne hvacant',
    hworking, (hset _ _).moveTarget hoff, erase_set hne hvacant, erase_set hne hvacant']
  rcases passSteps chance _ _ with e | _
  · exact ⟨rfl, h⟩
  rcases htarget : (t.set temporary _).moveTarget path with e | place
  · exact ⟨rfl, h⟩
  obtain ⟨directory, name, -, -, -, hdir, rfl⟩ := moveTarget_ok hne hvacant htarget
  exact ⟨rfl, h.set (by simp) (h.evolves.trans (.set_file (by simp) hdir _ _))⟩

end ConfigPack.FileTree
