import ConfigPack.Proofs.FileTree.Enter
import ConfigPack.Proofs.FileTree.Replace

/-!
# Files that are found again

A path to which a file could be written leads to that file as long as the file is there, and with it
the directories and links on its way (`read_again`).
-/

namespace ConfigPack.FileTree

variable {t t' : FileTree}

/-- A walk goes along the names at its front before it goes on. -/
lemma Walks.split {follow : Bool} {links place names landing}
    (h : t.Walks follow links place names landing) :
    ∀ {a b}, names = a ++ b → (∃ s ∈ b, s ≠ "") →
      ∃ mid links', t.Leads place (Path.proper a) mid ∧ t.Walks follow links' mid b landing := by
  -- where the names in front are used up, the walk that is left is the one that goes on
  induction h with
  | arrive =>
    intro a b e hb
    obtain ⟨_, rfl⟩ := List.append_eq_nil_iff.1 e.symm
    obtain ⟨_, hs, _⟩ := hb
    cases hs
  | @stay links place name rest landing htrivial h ih =>
    intro a b e hb
    cases a with
    | nil =>
      cases e
      exact ⟨place, _, .here, .stay htrivial h⟩
    | cons _ a =>
      cases e
      rw [Path.proper_cons_trivial _ htrivial]
      exact ih rfl hb
  | @up links place rest landing h ih =>
    intro a b e hb
    cases a with
    | nil =>
      cases e
      exact ⟨place, _, .here, .up h⟩
    | cons _ a =>
      cases e
      obtain ⟨mid, links', hl, hw⟩ := ih rfl hb
      rw [Path.proper_cons _ (by decide)]
      exact ⟨mid, links', .up hl, hw⟩
  | @vacant links place name rest hname hsize hnode hrest =>
    intro a b e hb
    cases a with
    | nil =>
      cases e
      exact ⟨place, links, .here, .vacant hname hsize hnode hrest⟩
    | cons _ a =>
      cases e
      obtain ⟨s, hs, hne⟩ := hb
      exact absurd (hrest s (List.mem_append_right _ hs)) hne
  | @enter links place name rest landing hname hsize hnode h ih =>
    intro a b e hb
    cases a with
    | nil =>
      cases e
      exact ⟨place, _, .here, .enter hname hsize hnode h⟩
    | cons _ a =>
      cases e
      obtain ⟨mid, links', hl, hw⟩ := ih rfl hb
      rw [Path.proper_cons _ hname.not_trivial]
      exact ⟨mid, links', .down hname.ne_up (by simp [hnode]) hl, hw⟩
  | @file links place name data mode hname hsize hnode =>
    intro a b e hb
    cases a with
    | nil =>
      cases e
      exact ⟨place, links, .here, .file hname hsize hnode⟩
    | cons _ a =>
      obtain ⟨_, hs, _⟩ := hb
      simp only [List.cons_append, List.cons.injEq, List.nil_eq, List.append_eq_nil_iff] at e
      rw [e.2.2] at hs
      cases hs
  | @stop links place name target hname hsize hnode hfollow =>
    intro a b e hb
    cases a with
    | nil =>
      cases e
      exact ⟨place, links, .here, .stop hname hsize hnode hfollow⟩
    | cons _ a =>
      obtain ⟨_, hs, _⟩ := hb
      simp only [List.cons_append, List.cons.injEq, List.nil_eq, List.append_eq_nil_iff] at e
      rw [e.2.2] at hs
      cases hs
  | @follow links place name target rest landing hname hsize hnode hrest htarget h ih =>
    intro a b e hb
    cases a with
    | nil =>
      cases e
      exact ⟨place, _, .here, .follow hname hsize hnode hrest htarget h⟩
    | cons _ a =>
      cases e
      obtain ⟨mid, links', hl, hw⟩ := ih (List.append_assoc ..).symm hb
      rw [Path.proper_append, Path.proper_steps] at hl
      rw [Path.proper_cons _ hname.not_trivial]
      exact ⟨mid, links', .follow hname.ne_up hnode hl, hw⟩

/-- A walk goes the same way in a tree that has the directories and links as well, and finds the
file that stands at its end there. -/
lemma walkFrom_again {data : ByteArray} {mode : Nat}
    (hdirectory : ∀ p, t.node? p = some .directory → t'.node? p = some .directory)
    (hlink : ∀ p target, t.node? p = some (.link target) → t'.node? p = some (.link target))
    {fuel : Nat} :
    ∀ {links place names landing}, t.walkFrom true fuel links place names = .ok landing →
      (∀ directory name, landing ≠ .missing directory name true) →
      t'.node? landing.place = some (.file data mode) →
      t'.walkFrom true fuel links place names = .ok (.found landing.place) := by
  -- step by step: what the first tree has on the way, the other one has
  induction fuel with
  | zero =>
    intro links place names landing h
    simp [walkFrom] at h
  | succ fuel ih =>
    intro links place names landing h hslash hfile
    obtain ⟨stride, hstep, hends⟩ := walkFrom_succ_ok.1 h
    refine walkFrom_succ_ok.2 ?_
    cases hstep with
    | arrive =>
      cases hends
      exact ⟨_, .arrive, rfl⟩
    | stay htrivial => exact ⟨_, .stay htrivial, ih hends hslash hfile⟩
    | up => exact ⟨_, .up, ih hends hslash hfile⟩
    | @vacant _ _ name rest hname hsize _ _ =>
      cases hends
      cases rest with
      | nil => exact ⟨_, .file hname hsize hfile, rfl⟩
      | cons _ _ => exact absurd rfl (hslash place name)
    | enter hname hsize hnode =>
      exact ⟨_, .enter hname hsize (hdirectory _ hnode), ih hends hslash hfile⟩
    | file hname hsize _ =>
      cases hends
      exact ⟨_, .file hname hsize hfile, rfl⟩
    | stop _ _ _ hfollow => cases hfollow
    | follow hname hsize hnode hrest htarget =>
      exact ⟨_, .follow hname hsize (hlink _ _ hnode) hrest htarget, ih hends hslash hfile⟩

variable {path last : String} {above : List String} {data data' : ByteArray}

/-- A walk along a path goes the same way in a tree that has the directories and links as well, and
finds the file that stands at its end there. -/
lemma walk_again {landing : Landing} {mode : Nat}
    (hworking : t'.workingDirectory = t.workingDirectory)
    (hdirectory : ∀ p, t.node? p = some .directory → t'.node? p = some .directory)
    (hlink : ∀ p target, t.node? p = some (.link target) → t'.node? p = some (.link target))
    (h : t.walk true path = .ok landing)
    (hslash : ∀ directory name, landing ≠ .missing directory name true)
    (hfile : t'.node? landing.place = some (.file data mode)) :
    t'.walk true path = .ok (.found landing.place) := by
  obtain ⟨hnul, h⟩ := walk_eq_ok.1 h
  obtain ⟨hempty, hsize, h⟩ := walkNames_eq_ok.1 h
  have hagain := walkFrom_again hdirectory hlink h hslash hfile
  rw [← hworking] at hagain
  exact walk_eq_ok.2 ⟨hnul, walkNames_eq_ok.2 ⟨hempty, hsize, hagain⟩⟩

/-- A file is read where a walk along its path finds it. -/
lemma read_eq_ok :
    t.read path = .ok data ↔
      ∃ place mode, t.walk true path = .ok (.found place) ∧
        t.node? place = some (.file data mode) := by
  rw [read, Result.bind_eq_ok]
  constructor
  · rintro ⟨place, hlocate, hread⟩
    obtain ⟨landing, hwalk, hlanding⟩ := Result.bind_eq_ok.1 hlocate
    cases landing with
    | missing => cases hlanding
    | found found =>
      cases hlanding
      rw [readAt] at hread
      split at hread
      next hnode =>
        cases hread
        exact ⟨_, _, hwalk, hnode⟩
      all_goals cases hread
  · rintro ⟨place, mode, hwalk, hnode⟩
    refine ⟨place, ?_, by rw [readAt, hnode]⟩
    rw [locate, hwalk]
    rfl

/-- Where a path that ends with the name of an entry is written to. -/
lemma landing_of_write (hends : Path.EndsIn path above last) (hlast : IsEntryName last)
    (h : t.write path data = .ok t') :
    ∃ landing, t.walkNames true path (steps path) = .ok landing ∧
      (∀ directory name, landing ≠ .missing directory name true) ∧
      t.LeadsTo path landing.place := by
  obtain ⟨front, _, hsteps, hname⟩ := steps_of_endsIn hends hlast
  simp only [write, hname] at h
  split at h
  · cases h
  obtain ⟨landing, hwalk, h⟩ := Result.bind_eq_ok.1 h
  rw [hsteps]
  refine ⟨landing, hwalk, ?_, ?_⟩
  · rintro directory name rfl
    cases h
  · have hleads := (walks_of_walkNames hwalk).leads
    rwa [← hsteps, Path.proper_steps] at hleads

/-- What is put at the place of a path that could be written is read by that path. -/
lemma read_again {place : Place} {mode : Nat} (hends : Path.EndsIn path above last)
    (hlast : IsEntryName last) {u : FileTree} (hwrite : t.write path data = .ok u)
    (hplace : t.LeadsTo path place) (hworking : t'.workingDirectory = t.workingDirectory)
    (hdirectory : ∀ p, t.node? p = some .directory → t'.node? p = some .directory)
    (hlink : ∀ p target, t.node? p = some (.link target) → t'.node? p = some (.link target))
    (hfile : t'.node? place = some (.file data' mode)) : t'.read path = .ok data' := by
  have hfits := fits_of_write hwrite
  obtain ⟨landing, hwalk, hslash, hleads⟩ := landing_of_write hends hlast hwrite
  cases hleads.unique hplace
  have hwalk' : t.walk true path = .ok landing := by
    rw [walk, if_neg (by simp [hfits.hasNul])]
    exact hwalk
  exact read_eq_ok.2
    ⟨landing.place, mode, walk_again hworking hdirectory hlink hwalk' hslash hfile, hfile⟩

/-- A file is read as before when directories were made. -/
lemma Grows.read {P : Place → Prop} (h : t.Grows P t') (hread : t.read path = .ok data) :
    t'.read path = .ok data := by
  obtain ⟨place, mode, hwalk, hnode⟩ := read_eq_ok.1 hread
  have hkeeps : ∀ p node, t.node? p = some node → t'.node? p = some node := by
    intro p node hp
    rcases h.node p with hsame | ⟨_, hnone, _⟩
    · rw [hsame, hp]
    · rw [hp] at hnone
      cases hnone
  have hfile := hkeeps place _ hnode
  refine read_eq_ok.2 ⟨place, mode, ?_, hfile⟩
  exact walk_again h.workingDirectory (fun p => hkeeps p _) (fun p target => hkeeps p _) hwalk
    (fun _ _ h => nomatch h) hfile

/-- A file that is put at the entry where a path ends is read by that path, unless it takes the
place of a directory or a link. -/
lemma read_of_set {directory : Place} {name : String} {mode : Nat}
    (hwalk : t.walk false path = .ok (t.landingAt directory name))
    (hdir : t.node? (directory ++ [name]) ≠ some .directory)
    (hlink : ∀ target, t.node? (directory ++ [name]) ≠ some (.link target)) :
    (t.set (directory ++ [name]) (.file data mode)).read path = .ok data := by
  have hne : directory ++ [name] ≠ [] := by simp
  have hplace : (t.landingAt directory name).place = directory ++ [name] := landingAt_place ..
  have hfollow := walk_follow hwalk (hplace ▸ hlink)
  have hfile : (t.set (directory ++ [name]) (.file data mode)).node?
      (t.landingAt directory name).place = some (.file data mode) := by
    rw [hplace, node?_set hne, if_pos rfl]
  have hkeeps : ∀ p node, p ≠ directory ++ [name] → t.node? p = some node →
      (t.set (directory ++ [name]) (.file data mode)).node? p = some node := by
    intro p node hother hp
    rw [node?_set hne, if_neg hother, hp]
  refine read_eq_ok.2 ⟨_, mode, walk_again (workingDirectory_set ..)
    (fun p hp => hkeeps p _ (fun heq => hdir (heq ▸ hp)) hp)
    (fun p target hp => hkeeps p _ (fun heq => hlink target (heq ▸ hp)) hp) hfollow
    (fun directory' name' hmissing => ?_) hfile, hfile⟩
  rcases hnode : t.node? (directory ++ [name]) with _ | node
  · rw [landingAt_none hnode] at hmissing
    cases hmissing
  · rw [landingAt_some hnode] at hmissing
    cases hmissing

/-- What is written to a path that ends with the name of an entry is read by it. -/
lemma read_of_write (hends : Path.EndsIn path above last) (hlast : IsEntryName last)
    (h : t.write path data = .ok t') : t'.read path = .ok data := by
  obtain ⟨place, mode, hleads, hne, hdir, hlink, hset⟩ := write_ok h
  have hkeeps : ∀ p node, t.node? p = some node → p ≠ place → t'.node? p = some node := by
    intro p node hp hother
    rw [hset, node?_set hne, if_neg hother, hp]
  refine read_again hends hlast h hleads (hset ▸ workingDirectory_set ..)
    (fun p hp => hkeeps p _ hp ?_) (fun p target hp => hkeeps p _ hp ?_)
    (by rw [hset, node?_set hne, if_pos rfl])
  · rintro rfl
    exact hdir hp
  · rintro rfl
    exact hlink target hp

/-- What takes the place of a file is read where there are no links. -/
lemma read_of_replace {chance : WriteChance} (h : t.replace chance path data = (t', .ok ()))
    (hfree : t.LinkFree []) :
    t'.read path = .ok data := by
  obtain ⟨directory, name, mode, _, _, hwalk, hdir, rfl⟩ := replace_ok h
  exact read_of_set hwalk hdir fun target => hfree _ target List.nil_prefix

/-! ## Paths of files -/

/-- What an operation on a directory entry sees of a path that ends with a name. -/
lemma lastStep_of_concat {front parts : List String} {step : LastStep} (hlast : IsEntryName last)
    (h : lastStep path = (parts, step)) (hparts : parts = front ++ [last]) :
    step = .name false ∨ step = .name true := by
  simp only [lastStep] at h
  split at h
  next hnone =>
    injection h with hsame _
    rw [hsame, hparts] at hnone
    simp at hnone
  next name hsome =>
    injection h with hsame hstep
    rw [hsame, hparts, List.getLast?_concat] at hsome
    cases hsome
    rw [if_neg fun h => h.elim hlast.ne_dot hlast.ne_up] at hstep
    rw [← hstep]
    cases decide ((steps path).getLast? = some "") <;> simp

/-- A path that is written to where a file stands ends with the name of that file. -/
lemma getLast?_of_write {mid : Place} {before : ByteArray} {mode : Nat}
    (hnames : Path.names path = above ++ [last]) (hup : last ≠ "..")
    (hmid : t.Leads (start t.workingDirectory path) above mid)
    (hfile : t.node? (mid ++ [last]) = some (.file before mode))
    (h : t.write path data = .ok t') : (Path.segments path).getLast? = some last := by
  have hlast : IsEntryName last := by
    have hmem : last ∈ Path.names path := by simp [hnames]
    obtain ⟨_, hne, hdot⟩ := Path.mem_proper.1 hmem
    exact ⟨hne, hdot, hup⟩
  simp only [write] at h
  split at h
  · cases h
  rcases hstep : lastStep path with ⟨parts, step⟩
  rw [hstep] at h
  obtain ⟨landing, hwalk, h⟩ := Result.bind_eq_ok.1 h
  have hproper : Path.proper parts = above ++ last :: [] := by
    rw [← hnames, ← proper_lastStep, hstep]
  obtain ⟨front, rest, hparts, hfront, -⟩ := exists_split_of_proper hproper
  -- the walk comes by the file, so it ends there
  obtain ⟨mid', _, hleads, hrest⟩ :=
    (walks_of_walkNames hwalk).split hparts ⟨last, List.mem_cons_self, hlast.ne_empty⟩
  rw [hfront] at hleads
  cases hleads.unique hmid
  have hnil : rest = [] := by
    cases hrest with
    | stay htrivial => exact absurd htrivial hlast.not_trivial
    | up => exact absurd rfl hup
    | vacant _ _ hnode => simp [hfile] at hnode
    | enter _ _ hnode => simp [hfile] at hnode
    | file => rfl
    | stop => rfl
    | follow _ _ hnode => simp [hfile] at hnode
  subst hnil
  rcases lastStep_of_concat hlast hstep hparts with rfl | rfl
  · rw [lastStep_steps hstep] at hparts
    exact getLast?_segments hlast.ne_empty hparts
  · cases h

end ConfigPack.FileTree
