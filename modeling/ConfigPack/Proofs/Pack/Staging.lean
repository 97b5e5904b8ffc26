import ConfigPack.Pack.Unpack
import ConfigPack.Proofs.FileTree.Operations
import ConfigPack.Proofs.Work

/-!
# Staging entries

The entries of a pack are put into a directory before anything is installed.  Whether that succeeds
or not, only places change to which the paths of the entries in that directory lead.
-/

namespace ConfigPack.Pack

variable {σ : Type} {t : FileTree}

/-- What the staging of files may have done to a tree: links are the same, and only places to which
the paths lead have changed. -/
structure Staged (t : FileTree) (paths : List String) (t' : FileTree) : Prop where
  sameLinks : t.SameLinks t'
  kept : ∀ q, (∀ path ∈ paths, ¬ t.Passing path q) → t'.node? q = t.node? q

/-- Nothing is staged at first. -/
lemma Staged.refl (t : FileTree) (paths : List String) : Staged t paths t :=
  ⟨.refl t, fun _ _ => rfl⟩

/-- Making directories above a path, however far it comes, and then the file at the path. -/
lemma Staged.grows {t₁ t₂ : FileTree} {paths : List String} {above path : String}
    (h : Staged t paths t₁) (hpath : path ∈ paths)
    (habove : FileTree.IsAncestor above path) (hgrows : t₁.Grows (t₁.OnWay above) t₂) :
    Staged t paths t₂ := by
  refine ⟨h.sameLinks.trans hgrows.sameLinks, fun q hq => ?_⟩
  rcases hgrows.node q with e | ⟨hway, hvacant, _⟩
  · rw [e, h.kept q hq]
  · have hpassing := habove.passing (hway.passing hvacant)
    exact absurd (h.sameLinks.symm.passing hpassing) (hq path hpath)

/-- A file that is written at one of the paths. -/
lemma Staged.write {t₁ t₂ : FileTree} {paths : List String} {path : String} {data : ByteArray}
    (h : Staged t paths t₁) (hpath : path ∈ paths) (hwrite : t₁.write path data = .ok t₂) :
    Staged t paths t₂ := by
  obtain ⟨place, mode, hleads, hroot, _, hlink, rfl⟩ := FileTree.write_ok hwrite
  refine ⟨h.sameLinks.trans (.set_file hroot hlink data mode), fun q hq => ?_⟩
  have hne : q ≠ place := by
    rintro rfl
    exact hq path hpath (h.sameLinks.symm.passing hleads.passing)
  rw [FileTree.node?_set hroot, if_neg hne, h.kept q hq]

/-- The directory in which an entry is staged. -/
def makeAbove (path : String) : Work σ PackError Unit :=
  match Path.parent? path with
  | some above => Work.changePartly (.io above) fun tree => tree.makeDirectories above
  | none => pure ()

/-- An entry with a safe name is staged in two steps. -/
lemma stageEntry_eq {staging name : String} {data : ByteArray}
    (hsafe : Archive.isSafeName name = true) :
    (stageEntry staging (name, data) : Work σ PackError Unit) = (do
      makeAbove (Path.join staging name)
      Work.change (.io (Path.join staging name)) fun tree =>
        tree.write (Path.join staging name) data) := by
  simp only [stageEntry, hsafe, Bool.not_true, Bool.false_eq_true, ↓reduceIte, makeAbove]
  cases Path.parent? (Path.join staging name) with
  | none => simp only [pure_bind]
  | some above => rfl

/-- What the making of directories above a path preserves is preserved by `makeAbove`. -/
lemma makeAbove_preserves {P : FileTree → Prop} {path : String}
    (hmake : ∀ t above, P t → FileTree.IsAncestor above path → P (t.makeDirectories above).1) :
    Work.Preserves P (makeAbove path : Work σ PackError Unit) := by
  intro w h
  rw [makeAbove]
  split
  next above habove =>
    rw [Work.exec_changePartly]
    exact hmake _ _ h (FileTree.isAncestor_of_parent habove)
  next => exact h

/-- Staging an entry, however far it comes, preserves what is preserved when directories are made
above its path and when its file is written. -/
lemma stageEntry_preserves {P : FileTree → Prop} {staging : String} {entry : String × ByteArray}
    (hmake : ∀ t above, P t → FileTree.IsAncestor above (Path.join staging entry.1) →
      P (t.makeDirectories above).1)
    (hwrite : Archive.isSafeName entry.1 = true →
      ∀ t t', P t → t.write (Path.join staging entry.1) entry.2 = .ok t' → P t') :
    Work.Preserves P (stageEntry staging entry : Work σ PackError Unit) := by
  obtain ⟨name, data⟩ := entry
  cases hsafe : Archive.isSafeName name with
  | false =>
    intro w h
    simp only [stageEntry, hsafe, Bool.not_false, ↓reduceIte, Work.exec_bind, Work.exec_throw]
    exact h
  | true =>
    rw [stageEntry_eq hsafe]
    refine .bind (makeAbove_preserves hmake) fun _ w h => ?_
    rw [Work.exec_change]
    split
    next tree htree => exact hwrite hsafe _ _ h htree
    next => exact h

/-- Directories that are made above one of the paths. -/
lemma Staged.makeDirectories {paths : List String} {path above : String} {t₁ : FileTree}
    (hpath : path ∈ paths) (h : Staged t paths t₁) (habove : FileTree.IsAncestor above path) :
    Staged t paths (t₁.makeDirectories above).1 :=
  h.grows hpath habove (t₁.makeDirectories_grows above)

/-- The directories above one of the paths are made. -/
lemma makeAbove_staged {paths : List String} {path : String} (hpath : path ∈ paths) :
    Work.Preserves (Staged t paths) (makeAbove path : Work σ PackError Unit) :=
  makeAbove_preserves fun _ _ h habove => h.makeDirectories hpath habove

/-- Staging one entry, however far it comes. -/
lemma stageEntry_staged {paths : List String} {staging : String} {entry : String × ByteArray}
    (hpath : Path.join staging entry.1 ∈ paths) :
    Work.Preserves (Staged t paths) (stageEntry staging entry : Work σ PackError Unit) :=
  stageEntry_preserves (fun _ _ h habove => h.makeDirectories hpath habove)
    fun _ _ _ h hwrite => h.write hpath hwrite

/-- All entries of an archive are staged one after the other. -/
def stageAll (staging : String) (entries : Dict ByteArray) : Work σ Failure Unit :=
  entries.entries.forM fun entry => Work.within .pack (stageEntry staging entry)

/-- Staging all entries, however far it comes. -/
lemma stageEntries_staged (staging : String) (entries : List (String × ByteArray)) (w : World σ) :
    Staged w.tree (entries.map fun e => Path.join staging e.1)
      ((entries.forM fun entry =>
        Work.within Failure.pack (stageEntry staging entry)).exec w).2.tree := by
  refine Work.Preserves.forM (fun entry hentry => .within _ ?_) w (.refl _ _)
  exact stageEntry_staged (List.mem_map_of_mem hentry)

end ConfigPack.Pack
