import ConfigPack.FileTree.Replace
import ConfigPack.Proofs.FileTree.Operations
import ConfigPack.Proofs.Result

/-!
# What replacing a file does

However far it gets, the replacing of a file does one of two things (`replace_cases`): it puts the
finished file at the entry that its path names, or it is refused, and then nothing has changed.  The
temporary file is taken away in both cases; it does not show on the way of the path, since it is put
where nothing stood.
-/

namespace ConfigPack.FileTree

variable {t t' : FileTree} {temporary place : Place} {node : Node} {path : String}

/-! ## Temporary nodes -/

/-- A node where none was is put behind the others. -/
lemma setNode_of_vacant {nodes : List (Place × Node)} (h : ∀ e ∈ nodes, e.1 ≠ place) :
    setNode place node nodes = nodes ++ [(place, node)] := by
  induction nodes with
  | nil => rfl
  | cons e rest ih =>
    obtain ⟨hfirst, hrest⟩ := List.forall_mem_cons.1 h
    rw [setNode, if_neg hfirst, ih hrest, List.cons_append]

/-- Of two nodes at one place the second one stays. -/
lemma setNode_setNode {node' : Node} (nodes : List (Place × Node)) :
    setNode place node' (setNode place node nodes) = setNode place node' nodes := by
  induction nodes with
  | nil => simp [setNode]
  | cons e rest ih =>
    by_cases hsame : e.1 = place
    · simp [setNode, hsame]
    · simp only [setNode, if_neg hsame, ih]

/-- So it is in a tree. -/
lemma set_set {node' : Node} : (t.set place node).set place node' = t.set place node' := by
  simp only [set, setNode_setNode]

/-- A node that was put where nothing stood is taken away without a trace. -/
lemma erase_set (hne : place ≠ []) (hvacant : t.node? place = none) :
    (t.set place node).erase place = t := by
  have hother : ∀ e ∈ t.nodes, e.1 ≠ place := by
    rw [node?, if_neg hne, List.lookup_eq_none_iff] at hvacant
    intro e he hsame
    simpa [hsame] using hvacant e he
  simp only [set, erase, setNode_of_vacant hother, List.filter_append]
  rw [List.filter_eq_self.2 (by simpa using hother)]
  simp

/-! ## Creating -/

/-- A new file is created in a directory under a name that stands for nothing there. -/
lemma placeOfNew_ok {directory name : String} (h : t.placeOfNew directory name = .ok place) :
    ∃ above, place = above ++ [name] ∧ t.locate directory = .ok above ∧
      t.node? above = some .directory ∧ t.node? place = none := by
  rw [placeOfNew] at h
  split at h
  · cases h
  split at h
  · cases h
  obtain ⟨above, hlocate, h⟩ := Result.bind_eq_ok.1 h
  split at h
  next hdir =>
    split at h
    · cases h
    next hvacant =>
      cases h
      exact ⟨above, rfl, hlocate, hdir, by simpa using hvacant⟩
  next => cases h

/-- A temporary file is made where a new file with its name can be. -/
lemma placeOfTemporary_ok {chance : WriteChance} {directory : String}
    (h : t.placeOfTemporary chance directory = .ok temporary) :
    t.placeOfNew directory chance.name.text = .ok temporary := by
  rw [placeOfTemporary] at h
  split at h
  next hcreated =>
    cases h
    obtain ⟨_, _, hplace⟩ := Result.bind_eq_ok.1 hcreated
    exact hplace
  all_goals cases h

/-- A temporary file is created where nothing stood. -/
lemma vacant_of_placeOfTemporary {chance : WriteChance} {directory : String}
    (h : t.placeOfTemporary chance directory = .ok temporary) :
    temporary ≠ [] ∧ t.node? temporary = none := by
  obtain ⟨above, rfl, -, -, hvacant⟩ := placeOfNew_ok (placeOfTemporary_ok h)
  exact ⟨by simp, hvacant⟩

/-! ## Moving -/

/-- A step in a tree with one file more is one in the tree without it, or it misses the file
there. -/
lemma Step.of_set {data : ByteArray} {mode links : Nat} {place : Place} {names : List String}
    {stride : Stride} (hne : temporary ≠ []) (hvacant : t.node? temporary = none)
    (h : (t.set temporary (.file data mode)).Step false links place names stride) :
    t.Step false links place names stride ∨
      ∃ there, t.Step false links place names (.lands there) ∧
        stride = .lands (.found there.place) := by
  -- a step asks for one node, and only that of the file is another one
  have hother : ∀ {place node?}, (t.set temporary (.file data mode)).node? place = node? →
      node? ≠ some (.file data mode) → t.node? place = node? := by
    rintro place _ rfl hdiffers
    rw [node?_set hne] at hdiffers ⊢
    split at hdiffers
    · exact absurd rfl hdiffers
    next hplace => rw [if_neg hplace]
  cases h with
  | arrive => exact .inl .arrive
  | stay htrivial => exact .inl (.stay htrivial)
  | up => exact .inl .up
  | vacant hname hsize hnode hrest =>
    exact .inl (.vacant hname hsize (hother hnode (by simp)) hrest)
  | enter hname hsize hnode => exact .inl (.enter hname hsize (hother hnode (by simp)))
  | @file _ _ name _ _ hname hsize hnode =>
    by_cases hhere : place ++ [name] = temporary
    · exact .inr ⟨_, .vacant hname hsize (hhere ▸ hvacant) (by simp), rfl⟩
    · rw [node?_set hne, if_neg hhere] at hnode
      exact .inl (.file hname hsize hnode)
  | stop hname hsize hnode hfollow =>
    exact .inl (.stop hname hsize (hother hnode (by simp)) hfollow)
  | follow hname hsize hnode hrest htarget =>
    exact .inl (.follow hname hsize (hother hnode (by simp)) hrest htarget)

/-- A walk that ends in a tree with one file more ends in the tree without it, and at the same
place. -/
lemma walkFrom_of_set {data : ByteArray} {mode : Nat} (hne : temporary ≠ [])
    (hvacant : t.node? temporary = none) {fuel : Nat} :
    ∀ {links place names landing},
      (t.set temporary (.file data mode)).walkFrom false fuel links place names = .ok landing →
      ∃ landing', t.walkFrom false fuel links place names = .ok landing' ∧
        landing'.place = landing.place := by
  induction fuel with
  | zero =>
    intro links place names landing h
    simp [walkFrom] at h
  | succ fuel ih =>
    intro links place names landing h
    obtain ⟨stride, hstep, hends⟩ := walkFrom_succ_ok.1 h
    rcases hstep.of_set hne hvacant with hbare | ⟨there, hbare, rfl⟩
    · cases stride with
      | lands there =>
        cases hends
        exact ⟨_, walkFrom_succ_ok.2 ⟨_, hbare, rfl⟩, rfl⟩
      | goes links place names =>
        obtain ⟨landing', hwalk, hsame⟩ := ih hends
        exact ⟨landing', walkFrom_succ_ok.2 ⟨_, hbare, hwalk⟩, hsame⟩
    · cases hends
      exact ⟨there, walkFrom_succ_ok.2 ⟨_, hbare, rfl⟩, rfl⟩

/-- A file is moved to the entry of its path, unless a directory stands there. -/
lemma moveTarget_ok {data : ByteArray} {mode : Nat} (hne : temporary ≠ [])
    (hvacant : t.node? temporary = none)
    (h : (t.set temporary (.file data mode)).moveTarget path = .ok place) :
    ∃ directory name, t.HasEntry path directory name ∧
      (Path.segments path).getLast? = some name ∧
      t.walk false path = .ok (t.landingAt directory name) ∧
      t.node? (directory ++ [name]) ≠ some .directory ∧ place = directory ++ [name] := by
  simp only [moveTarget] at h
  split at h
  · cases h
  next hnul =>
    rcases hl : lastStep path with ⟨parts, last⟩
    rw [hl] at h
    simp only at h
    obtain ⟨landing, hwalk, h⟩ := Result.bind_eq_ok.1 h
    -- the path of the target was walked in the tree without the temporary file, too
    obtain ⟨landing', hwalk', hsame⟩ : ∃ landing', t.walkNames false path parts = .ok landing' ∧
        landing'.place = landing.place := by
      obtain ⟨hempty, hsize, hwalk⟩ := walkNames_eq_ok.1 hwalk
      obtain ⟨landing', hwalk', hsame⟩ := walkFrom_of_set hne hvacant hwalk
      exact ⟨landing', walkNames_eq_ok.2 ⟨hempty, hsize, hwalk'⟩, hsame⟩
    cases last with
    | special => cases h
    | name slash =>
      cases slash with
      | true => cases h
      | false =>
        obtain ⟨directory, name, he, rfl, hlast⟩ := hasEntry_of_walkNames hl hwalk'
        rw [landingAt_place] at hsame
        obtain ⟨above, habove⟩ := List.getLast?_eq_some_iff.1 hlast
        rw [lastStep_steps hl] at habove
        refine ⟨directory, name, he, getLast?_segments he.isEntryName.ne_empty habove, ?_, ?_⟩
        · rw [walk, if_neg hnul, ← lastStep_steps hl, hwalk']
        rw [hsame]
        cases landing with
        | found found =>
          dsimp only at h
          split at h
          · cases h
          next hdir =>
            cases h
            refine ⟨fun hold => hdir ?_, rfl⟩
            rw [node?_set hne, if_neg]
            · exact hold
            · rintro rfl
              rw [Landing.place, hvacant] at hold
              cases hold
        | missing directory' name' slash =>
          cases h
          refine ⟨fun hold => ?_, rfl⟩
          -- the walk missed it with the temporary file there, so it is missing without
          have hnone := (walks_of_walkNames hwalk).vacant_of_missing rfl
          rw [node?_set hne] at hnone
          split at hnone
          · cases hnone
          · rw [Landing.place, hnone] at hold
            cases hold

/-! ## Replacing -/

/-- Let a temporary file pass the steps before it is moved; `name` is its path. -/
def passSteps (chance : WriteChance) (name : String) (mode : Option Nat) : Except IoError Unit := do
  (if mode.isSome then chance.pass .permissions else .ok ())
  (chance.pass .content).mapError (.atPath name)
  chance.pass .sync
  chance.pass .rename

/-- A temporary file that passes the steps takes the entry of its path. -/
lemma finishTemporary_eq (chance : WriteChance) (directory : String) (mode : Option Nat)
    (path : String) (data : ByteArray) (hne : temporary ≠ []) (hvacant : t.node? temporary = none) :
    (t.set temporary node).finishTemporary chance directory temporary mode path data = (do
      passSteps chance (Path.join (Path.join t.workingPath directory) chance.name.text) mode
      let place ← (t.set temporary (.file data (mode.getD newFileMode))).moveTarget path
      return t.set place (.file data (mode.getD newFileMode))) := by
  simp only [finishTemporary, passSteps, set_set, erase_set hne hvacant, bind_assoc]
  rfl

/-- When a temporary file is moved, the tree is that with the file at its target. -/
lemma finishTemporary_ok {chance : WriteChance} {directory : String} {mode : Option Nat}
    {data : ByteArray} (hne : temporary ≠ []) (hvacant : t.node? temporary = none)
    (h : (t.set temporary node).finishTemporary chance directory temporary mode path data =
      .ok t') :
    ∃ place, (t.set temporary (.file data (mode.getD newFileMode))).moveTarget path = .ok place ∧
      t' = t.set place (.file data (mode.getD newFileMode)) := by
  rw [finishTemporary_eq _ _ _ _ _ hne hvacant] at h
  obtain ⟨_, _, h⟩ := Result.bind_eq_ok.1 h
  obtain ⟨place, htarget, h⟩ := Result.bind_eq_ok.1 h
  cases h
  exact ⟨place, htarget, rfl⟩

/-- The content of a path is replaced at the entry of the path, or nothing is changed. -/
lemma replace_cases (t : FileTree) (chance : WriteChance) (path : String) (data : ByteArray) :
    (∃ e, t.replace chance path data = (t, .error e)) ∨
      ∃ directory name mode, t.HasEntry path directory name ∧
        (Path.segments path).getLast? = some name ∧
        t.walk false path = .ok (t.landingAt directory name) ∧
        t.node? (directory ++ [name]) ≠ some .directory ∧
        t.replace chance path data =
          (t.set (directory ++ [name]) (.file data mode), .ok ()) := by
  rw [replace]
  dsimp only
  split
  next e _ => exact .inl ⟨e, rfl⟩
  next temporary hplace =>
    obtain ⟨hne, hvacant⟩ := vacant_of_placeOfTemporary hplace
    split
    next done hdone =>
      obtain ⟨place, htarget, rfl⟩ := finishTemporary_ok hne hvacant hdone
      obtain ⟨directory, name, hentry, hlast, hwalk, hdir, rfl⟩ :=
        moveTarget_ok hne hvacant htarget
      exact .inr ⟨directory, name, _, hentry, hlast, hwalk, hdir, rfl⟩
    next e _ => exact .inl ⟨e, by rw [erase_set hne hvacant]⟩

/-- What is replaced is replaced at the entry of the path. -/
lemma replace_ok {chance : WriteChance} {data : ByteArray}
    (h : t.replace chance path data = (t', .ok ())) :
    ∃ directory name mode, t.HasEntry path directory name ∧
      (Path.segments path).getLast? = some name ∧
      t.walk false path = .ok (t.landingAt directory name) ∧
      t.node? (directory ++ [name]) ≠ some .directory ∧
      t' = t.set (directory ++ [name]) (.file data mode) := by
  rcases replace_cases t chance path data with
    ⟨e, he⟩ | ⟨directory, name, mode, hentry, hlast, hwalk, hdir, hdone⟩
  · rw [he] at h
    cases h
  · rw [hdone] at h
    cases h
    exact ⟨directory, name, mode, hentry, hlast, hwalk, hdir, rfl⟩

/-- Where the replacing of a file is refused, nothing has changed. -/
lemma replace_error {chance : WriteChance} {data : ByteArray} {e : IoError}
    (h : t.replace chance path data = (t', .error e)) : t' = t := by
  rcases replace_cases t chance path data with ⟨e, he⟩ | ⟨_, _, _, -, -, -, -, hdone⟩
  · rw [he] at h
    cases h
    rfl
  · rw [hdone] at h
    cases h

end ConfigPack.FileTree
