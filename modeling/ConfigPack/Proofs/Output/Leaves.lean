import ConfigPack.Output.Write
import ConfigPack.Proofs.FileTree.Replace
import ConfigPack.Proofs.Listeners

/-!
# How a write ends

A write ends in one of four ways, whatever its listeners do (`write_leaves`).  On trial, and where a
listener stops it at the start, it leaves all files alone.  Where it fails later it has made the
directory above the path that listeners chose at the start, and where it succeeds it has put the
bytes that it settled on at the path that it returns.
-/

namespace ConfigPack

variable {σ : Type}

/-! ## Directories above a path -/

/-- The files once the directory above a path is made, as far as that can be done. -/
def FileTree.readied (tree : FileTree) (path : String) : FileTree :=
  match Path.parent? path with
  | some above => if above.isEmpty then tree else (tree.makeDirectories above).1
  | none => tree

/-- The places that the directory above a path passes on its way. -/
def FileTree.OnWayAbove (tree : FileTree) (path : String) (place : Place) : Prop :=
  ∃ above, Path.parent? path = some above ∧ tree.OnWay above place

/-- What is on the way above a path is on the way to it. -/
lemma FileTree.OnWayAbove.onWay {tree : FileTree} {path : String} {place : Place}
    (h : tree.OnWayAbove path place) : tree.OnWay path place := by
  obtain ⟨above, hparent, front, name, directory, hpre, hup, hleads, hplace⟩ := h
  obtain ⟨hnames, habsolute⟩ := Path.names_parent hparent
  refine ⟨front, name, directory, ?_, hup, ?_, hplace⟩
  · exact hpre.trans (hnames ▸ List.dropLast_prefix _)
  · rw [← FileTree.start_eq habsolute]
    exact hleads

namespace Output

/-- A path is readied by directories on the way above it. -/
lemma readied_grows_above (tree : FileTree) (path : String) :
    tree.Grows (tree.OnWayAbove path) (tree.readied path) := by
  rw [FileTree.readied]
  split
  next above hparent =>
    split
    · exact .refl _
    · exact (tree.makeDirectories_grows above).mono fun place hplace => ⟨above, hparent, hplace⟩
  next => exact .refl _

/-- So these are on the way to it. -/
lemma readied_grows (tree : FileTree) (path : String) :
    tree.Grows (tree.OnWay path) (tree.readied path) :=
  (readied_grows_above tree path).mono fun _ h => h.onWay

/-- To ensure the parent of a path is to ready it, whether that succeeds or not. -/
lemma ensureParent_world (path : String) (w : World σ) :
    ((ensureParent path).exec w).2 = { w with tree := w.tree.readied path } := by
  rw [ensureParent, FileTree.readied]
  cases Path.parent? path with
  | none => rfl
  | some above =>
    dsimp only
    split <;> rfl

/-- So the tree is the readied one. -/
lemma ensureParent_tree (path : String) (w : World σ) :
    ((ensureParent path).exec w).2.tree = w.tree.readied path := by
  rw [ensureParent_world]

/-! ## What leaves the files alone -/

/-- Finding out the final content leaves the files alone. -/
lemma finish_still (draft : Draft) (bus : Bus σ) : Work.Still (finish draft bus) := by
  refine .bind (.look _ _) fun base => ?_
  cases base with
  | none => exact .pure _
  | some existing =>
    refine .bind (.log _ _) fun _ => .bind (.liftM _) fun _ => ?_
    exact .bind (.withHost _ _) fun _ => .bind (.liftM _) fun _ => .pure _

/-- A write on trial leaves the files alone. -/
lemma write_dry_still {settings : WriteSettings} (bus : Bus σ) (path : String) (data : ByteArray)
    (hdry : settings.dryRun = true) : Work.Still (write settings bus path data) := by
  refine .bind (.withHost _ _) fun draft => ?_
  simp only [hdry, Bool.not_true, Bool.false_eq_true, ↓reduceIte]
  exact .bind (finish_still _ _) fun finished => .bind (.log _ _) fun _ => .pure _

/-! ## The ends of a write -/

/-- A draft that is opened keeps its path. -/
lemma opened_path {draft opened : Draft} (h : draft.opened = .ok opened) :
    opened.path = draft.path := by
  rw [Draft.opened] at h
  split at h
  · rcases hp : draft.readPair with e | pair
    · rw [hp] at h
      cases h
    · rw [hp] at h
      cases h
      rfl
  · cases h
    rfl

variable {settings : WriteSettings} {bus : Bus σ} {path : String} {data : ByteArray}
  {w w' : World σ} {result : Except OutputError Written}

/-- What a draft comes to that listeners heard of at the start: it stays as it is where there is
nothing to merge it with, and else it is what listeners leave of it, with the bytes of the merge. -/
inductive Settles (bus : Bus σ) (tree : FileTree) (draft : Draft) (s : σ) :
    Draft → ByteArray → Prop
  | plain : mergeBase tree draft = .ok none → Settles bus tree draft s draft draft.data
  | merged {existing : ByteArray} {opened final : Draft} {content : ByteArray} {s' : σ} :
    mergeBase tree draft = .ok (some existing) →
    { draft with existing := some existing }.opened = .ok opened →
    (bus.emitMerge opened).run.run s = (.ok final, s') →
    final.merged = .ok content →
    Settles bus tree draft s final content

/-- When a draft is finished, what is written is what the listeners have settled. -/
lemma finish_settles {draft final : Draft} {content : ByteArray} {outcome : FileOutcome}
    (h : (finish draft bus).exec w = (.ok (final, content, outcome), w')) :
    Settles bus w.tree draft w.journal.host final content := by
  obtain ⟨base, w₁, hbase, h⟩ := Work.exec_bind_ok.1 h
  simp only [Work.exec_look, Prod.mk.injEq, Result.mapError_eq_ok] at hbase
  obtain ⟨hbase, rfl⟩ := hbase
  cases base with
  | none =>
    cases h
    exact .plain hbase
  | some existing =>
    obtain ⟨_, w₂, hlog, h⟩ := Work.exec_bind_ok.1 h
    cases hlog
    obtain ⟨opened, w₃, hopened, h⟩ := Work.exec_bind_ok.1 h
    obtain ⟨heard, w₄, hheard, h⟩ := Work.exec_bind_ok.1 h
    obtain ⟨bytes, w₅, hmerged, h⟩ := Work.exec_bind_ok.1 h
    cases h
    rw [Work.exec_liftM, Prod.mk.injEq] at hopened hmerged
    obtain ⟨hopened, rfl⟩ := hopened
    rw [Work.exec_withHost, Prod.mk.injEq, Result.mapError_eq_ok] at hheard
    exact .merged hbase hopened (Prod.ext hheard.1 rfl) hmerged.1

/-- The draft that listeners leave at the start of a write, and the state that they are in then. -/
def Started (settings : WriteSettings) (bus : Bus σ) (path : String) (data : ByteArray)
    (w : World σ) (draft : Draft) (s : σ) : Prop :=
  (bus.emitWrite (Draft.start settings.mode path data)).run.run w.journal.host = (.ok draft, s)

/-- How a write ends, and the files that it leaves. -/
inductive Leaves (settings : WriteSettings) (bus : Bus σ) (path : String) (data : ByteArray)
    (w : World σ) : Except OutputError Written → FileTree → Prop
  | dry {result : Except OutputError Written} :
    settings.dryRun = true → Leaves settings bus path data w result w.tree
  | stopped {e : OutputError} : Leaves settings bus path data w (.error e) w.tree
  | failed {draft : Draft} {s : σ} {e : OutputError} :
    Started settings bus path data w draft s →
    Leaves settings bus path data w (.error e) (w.tree.readied draft.path)
  | replaced {draft final : Draft} {s : σ} {content : ByteArray} {outcome : FileOutcome}
    {chance : WriteChance} {tree : FileTree} :
    Started settings bus path data w draft s →
    Settles bus (w.tree.readied draft.path) draft s final content →
    (w.tree.readied draft.path).replace chance final.path content = (tree, .ok ()) →
    Leaves settings bus path data w (.ok ⟨final.path, outcome⟩) tree

/-- What a write leaves, whether it succeeds or fails. -/
lemma write_leaves (h : (write settings bus path data).exec w = (result, w')) :
    Leaves settings bus path data w result w'.tree := by
  cases hdry : settings.dryRun with
  | true =>
    rw [(write_dry_still bus path data hdry).tree h]
    exact .dry hdry
  | false =>
    rcases Work.exec_bind_cases h with ⟨e, hstart, rfl⟩ | ⟨draft, w₁, hstart, h⟩
    · rw [(Work.Still.withHost _ _).tree hstart]
      exact .stopped
    have htree₁ : w₁.tree = w.tree := (Work.Still.withHost _ _).tree hstart
    rw [Work.exec_withHost, Prod.mk.injEq, Result.mapError_eq_ok] at hstart
    have hstarted : Started settings bus path data w draft w₁.journal.host := by
      rw [← hstart.2]
      exact Prod.ext hstart.1 rfl
    simp only [hdry, Bool.not_false, Bool.false_eq_true, ↓reduceIte] at h
    -- whatever follows, the directory above the path stands as far as it could be made
    have hready := ensureParent_world draft.path w₁
    rw [htree₁] at hready
    rcases Work.exec_bind_cases h with ⟨e, hparent, rfl⟩ | ⟨_, w₂, hparent, h⟩
    · rw [show (ensureParent draft.path).exec w₁ = _ from hparent] at hready
      obtain rfl : w' = _ := hready
      exact .failed hstarted
    rw [show (ensureParent draft.path).exec w₁ = _ from hparent] at hready
    subst hready
    rcases Work.exec_bind_cases h with ⟨e, hfinish, rfl⟩ | ⟨⟨final, content, outcome⟩, w₃, hfinish, h⟩
    · rw [(finish_still _ _).tree hfinish]
      exact .failed hstarted
    have htree₃ : w₃.tree = w.tree.readied draft.path := (finish_still _ _).tree hfinish
    rcases Work.exec_bind_cases h with ⟨e, hreplace, rfl⟩ | ⟨_, w₄, hreplace, h⟩
    · obtain ⟨_, _, hrefused⟩ := Work.exec_replace_error hreplace
      rw [FileTree.replace_error hrefused, htree₃]
      exact .failed hstarted
    cases h
    have hdone := Work.exec_replace_ok hreplace
    rw [htree₃] at hdone
    exact .replaced hstarted (finish_settles hfinish) hdone

end Output

end ConfigPack
