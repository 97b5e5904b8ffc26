import ConfigPack.Proofs.Output.Combine

/-!
# How a write without listeners ends

Without listeners a write does one of three things once the directory above its path is there
(`write_ends`): the file system refuses it, both sides cannot be merged, or it puts the content that
it settled on at its path.
-/

namespace ConfigPack

variable {σ : Type}

namespace Output

variable {mode : MergeMode} {path : String} {data : ByteArray}

/-- The parent of a path is missing only because of the file system. -/
lemma ensureParent_error {e : OutputError} {w w' : World σ}
    (h : (ensureParent path).exec w = (.error e, w')) : ∃ above io, e = .io above io := by
  rw [ensureParent] at h
  split at h
  next above _ =>
    split at h
    · cases h
    · rw [Work.exec_changePartly, Prod.mk.injEq, Result.mapError_eq_error] at h
      obtain ⟨⟨io, _, rfl⟩, _⟩ := h
      exact ⟨above, io, rfl⟩
  next => cases h

/-- What a draft is merged with is not found out only when it cannot be read. -/
lemma mergeBase_error {tree : FileTree} {draft : Draft} {e : OutputError}
    (h : mergeBase tree draft = .error e) : ∃ io, e = .io draft.path io := by
  rw [mergeBase] at h
  split at h
  · rcases hread : readExisting tree draft.path with e' | existing
    all_goals
      rw [hread] at h
      cases h
    rw [readExisting] at hread
    split at hread
    · cases hread
    · cases hread
    next io _ _ =>
      cases hread
      exact ⟨io, rfl⟩
  · cases h

/-- What becomes of a draft without listeners when it is known what it is merged with. -/
def settled (draft : Draft) :
    Option ByteArray → Except OutputError (Draft × ByteArray × FileOutcome)
  | none => .ok (draft, draft.data, .written)
  | some existing => do
    let opened ← { draft with existing := some existing }.opened
    return (opened, ← opened.merged, .merged)

/-- With no listeners a draft is finished by merging it into what is there. -/
lemma finish_nil_result (draft : Draft) (w : World σ) :
    ((finish draft []).exec w).1 = (mergeBase w.tree draft >>= settled draft) := by
  have hheard : ∀ (opened : Draft) (w : World σ),
      (Work.withHost OutputError.hook (pure opened)).exec w = (.ok opened, w) := fun _ _ => rfl
  simp only [finish, Work.exec_bind, Work.exec_look]
  rcases mergeBase w.tree draft with e | base
  · rfl
  · cases base with
    | none => rfl
    | some existing =>
      simp only [Except.mapError, Work.exec_bind, Work.exec_log, Work.exec_liftM, emitMerge_nil,
        hheard]
      cases hopened : { draft with existing := some existing }.opened with
      | error e =>
        simp only [settled, hopened, bind, Except.bind]
      | ok opened =>
        simp only [settled, hopened, bind, Except.bind]
        rcases opened.merged with e | content <;> rfl

/-- A draft keeps its path. -/
lemma settled_path {draft draft' : Draft} {base : Option ByteArray} {content : ByteArray}
    {outcome : FileOutcome} (h : settled draft base = .ok (draft', content, outcome)) :
    draft'.path = draft.path := by
  cases base with
  | none =>
    cases h
    rfl
  | some existing =>
    obtain ⟨opened, hopened, h⟩ := Result.bind_eq_ok.1 h
    obtain ⟨bytes, _, h⟩ := Result.bind_eq_ok.1 h
    cases h
    exact (opened_path hopened :)

/-- How a write with no listeners ends in files that have the directory above its path, and the
files that it leaves. -/
inductive Ends (mode : MergeMode) (path : String) (data : ByteArray) (tree : FileTree) :
    Except OutputError Written → FileTree → Prop
  | refused {above : String} {io : IoError} {left : FileTree} :
    Ends mode path data tree (.error (.io above io)) left
  | unsettled {base : Option ByteArray} {e : OutputError} {left : FileTree} :
    mergeBase tree (Draft.start mode path data) = .ok base →
    settled (Draft.start mode path data) base = .error e →
    Ends mode path data tree (.error e) left
  | replaced {base : Option ByteArray} {draft : Draft} {content : ByteArray}
    {outcome : FileOutcome} {chance : WriteChance} {left : FileTree} :
    mergeBase tree (Draft.start mode path data) = .ok base →
    settled (Draft.start mode path data) base = .ok (draft, content, outcome) →
    tree.replace chance path content = (left, .ok ()) →
    Ends mode path data tree (.ok ⟨path, outcome⟩) left

/-- How a write ends, and in which tree. -/
lemma write_ends {w w' : World σ} {result : Except OutputError Written}
    (h : (write ⟨mode, false⟩ [] path data).exec w = (result, w')) :
    Ends mode path data (w.tree.readied path) result w'.tree := by
  have hstart : (Work.withHost OutputError.hook (pure (Draft.start mode path data))).exec w =
      (.ok (Draft.start mode path data), w) := rfl
  have hpath : (Draft.start mode path data).path = path := rfl
  simp only [write, emitWrite_nil, Work.exec_bind, hstart, Bool.not_false, Bool.false_eq_true,
    ↓reduceIte, hpath] at h
  -- a write makes the directory, settles on a content and puts it there, and may end at each of these
  have hready := ensureParent_tree path w
  rcases hparent : (ensureParent path).exec w with ⟨e | _, w₁⟩
  all_goals rw [hparent] at h hready
  · cases h
    obtain ⟨above, io, rfl⟩ := ensureParent_error hparent
    exact .refused
  dsimp only at h hready
  rw [← hready]
  have hresult := finish_nil_result (Draft.start mode path data) w₁
  have htree := finish_still (Draft.start mode path data) [] w₁
  rcases hfinish : (finish (Draft.start mode path data) []).exec w₁ with ⟨finished, w₂⟩
  rw [hfinish] at h hresult htree
  dsimp only at hresult htree
  rcases hbase : mergeBase w₁.tree (Draft.start mode path data) with e | base
  · obtain ⟨io, rfl⟩ := mergeBase_error hbase
    rw [hbase] at hresult
    subst hresult
    cases h
    exact .refused
  rw [hbase] at hresult
  change finished = settled _ _ at hresult
  rcases hsettled : settled (Draft.start mode path data) base with e | ⟨draft, content, outcome⟩
  all_goals
    rw [hsettled] at hresult
    subst hresult
  · cases h
    exact .unsettled hbase hsettled
  have hsame := settled_path hsettled
  rw [hpath] at hsame
  simp only [hsame, Work.exec_replace, htree, Work.exec_pure] at h
  rcases hreplace : w₁.tree.replace (w₂.chances.writes 0) path content with ⟨tree, io | ⟨⟩⟩
  all_goals
    rw [hreplace] at h
    cases h
  · exact .refused
  · exact .replaced hbase hsettled hreplace

end Output

end ConfigPack
