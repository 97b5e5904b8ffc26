import ConfigPack.Proofs.Alike
import ConfigPack.Proofs.Assembly.Writing
import ConfigPack.Proofs.FileTree.Twin

/-!
# Writing in twins

Where the output directory is apart from the place below which two trees differ, writing the same
contents has one result in both and leaves twins behind.
-/

namespace ConfigPack

variable {σ : Type} {t₀ : FileTree} {apart : Place}

namespace Output

@[simp] lemma withHost_pure {ε δ α : Type} (wrap : δ → ε) (a : α) :
    (Work.withHost wrap (pure a) : Work σ ε α) = pure a := rfl

/-- The parent of a path is ensured alike in twins. -/
lemma ensureParent_alike {path : String} (hoff : t₀.Avoids apart path) :
    Work.Alike True (t₀.Twin apart) (ensureParent path : Work σ OutputError Unit)
      (ensureParent path) := by
  rw [ensureParent]
  split
  next above habove =>
    split
    · exact .pure _
    · apply Work.Alike.changePartly
      intro t t' h
      exact h.makeDirectories ((FileTree.isAncestor_of_parent habove).avoids hoff)
  next => exact .pure _

/-- A draft is finished alike in twins. -/
lemma finish_alike {draft : Draft} (hoff : t₀.Avoids apart draft.path) :
    Work.Alike True (t₀.Twin apart) (finish draft ([] : Bus σ)) (finish draft []) := by
  have hbase : ∀ t t', t₀.Twin apart t t' → mergeBase t draft = mergeBase t' draft := by
    intro t t' h
    rw [mergeBase, mergeBase, readExisting, readExisting, h.read hoff]
  refine .bind (.look id hbase) fun base => ?_
  cases base with
  | none => exact .pure _
  | some existing =>
    refine .bind (.log _ _ _ _) fun _ => .bind (.liftM _) fun opened => ?_
    exact .bind (.withHost _ _) fun heard => .bind (.liftM _) fun merged => .pure _

/-- A write to a path that avoids the place where the trees differ. -/
lemma write_alike {settings : WriteSettings} {path : String} {data : ByteArray}
    (hoff : t₀.Avoids apart path) :
    Work.Alike True (t₀.Twin apart) (write settings ([] : Bus σ) path data)
      (write settings [] path data) := by
  have hdraft : t₀.Avoids apart (Draft.start settings.mode path data).path := hoff
  simp only [write, emitWrite_nil, withHost_pure, pure_bind]
  cases hdry : settings.dryRun with
  | true =>
    simp only [Bool.not_true, Bool.false_eq_true, ↓reduceIte]
    refine .bind (finish_alike hdraft) fun finished => ?_
    exact .bind (.log _ _ _ _) fun _ => .pure _
  | false =>
    simp only [Bool.not_false, Bool.false_eq_true, ↓reduceIte]
    refine .bind (ensureParent_alike hdraft) fun _ => ?_
    refine .bind_of (P := fun finished => finished.1.path = path) (finish_alike hdraft)
      (fun hfinished => (settles_nil (finish_settles hfinished)).1) fun finished hpath => ?_
    rw [hpath]
    refine .bind (.replace _ trivial fun chance t t' h => ?_) fun _ => .pure _
    exact h.replace hoff chance finished.2.1

end Output

namespace Assembly

variable {settings : AssemblySettings}

/-- Writing a candidate with one path and one content, wherever the content is from. -/
lemma writeOne_alike {frame' : Option String} {item item' : Job × ByteArray}
    (hclear : Path.staysInside item.1.candidate.path = true →
      t₀.Avoids apart (Path.join settings.output item.1.candidate.path))
    (hcandidate : item'.1.candidate = item.1.candidate) (hdata : item'.2 = item.2) :
    Work.Alike True (t₀.Twin apart) (writeOne settings ([] : Bus σ) item)
      (writeOne { settings with frame := frame' } [] item') := by
  simp only [writeOne, hcandidate, hdata]
  refine .bind_of (P := t₀.Avoids apart) (.liftM _) ?_ fun path hoff => ?_
  · intro w path w' h
    simp only [Work.exec_liftM, Prod.mk.injEq] at h
    obtain ⟨_, hin, rfl⟩ := destination_ok h.1
    exact hclear hin
  · refine .bind (.within _ (Output.write_alike hoff)) fun written => ?_
    exact .bind (.record _ _ _) fun _ => .pure _

/-! ## Assembling in twins -/

variable {t t' : FileTree} {tokens : Dict String}

/-- Two jobs of one candidate that have one content in two trees, at a destination that keeps clear
of the place where the trees differ. -/
structure Matches (t₀ : FileTree) (apart : Place) (output : String) (tokens : Dict String)
    (t t' : FileTree) (job job' : Job) : Prop where
  candidate : job'.candidate = job.candidate
  render : render t' tokens job' = render t tokens job
  clear : Path.staysInside job.candidate.path = true →
    t₀.Avoids apart (Path.join output job.candidate.path)

/-- A file of two frames that is read as one content. -/
lemma render_frameJob {frame frame' file : String} {data : ByteArray}
    (h : t.read (Path.join frame file) = .ok data)
    (h' : t'.read (Path.join frame' file) = .ok data) :
    render t' tokens (frameJob frame' file) = render t tokens (frameJob frame file) := by
  simp only [render, frameJob, h, h', Except.mapError]

section

variable {jobs jobs' : List Job} {output : String}

/-- Of matching jobs the same are refused. -/
lemma refused_congr {environment : Environment}
    (h : List.Forall₂ (Matches t₀ apart output tokens t t') jobs jobs') :
    (jobs'.map (decision environment)).filterMap Sum.getLeft? =
      (jobs.map (decision environment)).filterMap Sum.getLeft? := by
  induction h with
  | nil => rfl
  | @cons job _ _ _ hfirst _ ih =>
    rw [List.map_cons, List.map_cons, List.filterMap_cons, List.filterMap_cons, ih, decision,
      decision, hfirst.candidate]
    cases environment.isExcluded job.candidate.path <;> rfl

/-- Of matching jobs those that are taken match. -/
lemma taken_matches (environment : Environment)
    (h : List.Forall₂ (Matches t₀ apart output tokens t t') jobs jobs') :
    List.Forall₂ (Matches t₀ apart output tokens t t')
      ((jobs.map (decision environment)).filterMap Sum.getRight?)
      ((jobs'.map (decision environment)).filterMap Sum.getRight?) := by
  rw [filterMap_decision, filterMap_decision]
  induction h with
  | nil => exact .nil
  | cons hfirst _ ih =>
    rw [List.filter_cons, List.filter_cons, hfirst.candidate]
    split
    · exact .cons hfirst ih
    · exact ih

/-- Matching jobs have the same contents. -/
lemma render_congr (h : List.Forall₂ (Matches t₀ apart output tokens t t') jobs jobs') :
    jobs'.map (render t' tokens) = jobs.map (render t tokens) := by
  induction h with
  | nil => rfl
  | cons hfirst _ ih => rw [List.map_cons, List.map_cons, hfirst.render, ih]

/-- Matching jobs with one list of contents are written alike. -/
lemma writeAll_alike {frame' : Option String}
    (h : List.Forall₂ (Matches t₀ apart settings.output tokens t t') jobs jobs')
    (contents : List ByteArray) :
    Work.Alike True (t₀.Twin apart) (writeAll settings ([] : Bus σ) (jobs.zip contents))
      (writeAll { settings with frame := frame' } [] (jobs'.zip contents)) := by
  refine .mapM ?_
  induction h generalizing contents with
  | nil => exact .nil
  | cons hfirst _ ih =>
    cases contents with
    | nil => exact .nil
    | cons data contents =>
      exact .cons (writeOne_alike hfirst.clear hfirst.candidate rfl) (ih contents)

end

/-- Two trees that stay as they are. -/
def Standing (t t' : FileTree) (u u' : FileTree) : Prop := u = t ∧ u' = t'

/-- Matching jobs are rendered alike but for the choice among their errors. -/
lemma renderAll_matching {jobs jobs' : List Job} {output : String} (parallel : Bool)
    (htwin : t₀.Twin apart t t') (h : List.Forall₂ (Matches t₀ apart output tokens t t') jobs jobs') :
    Work.AlikeUpTo (Rivals parallel (faults t tokens jobs)) True (Standing t t') (t₀.Twin apart)
      (renderAll parallel tokens jobs : Work σ AssemblyError (List ByteArray))
      (renderAll parallel tokens jobs') := by
  rintro w w' ⟨hhost, hwrites, rfl, rfl⟩
  obtain ⟨result, result', w₁, w₁', hexec, hexec', ⟨htree, hjournal, hdraws⟩,
    ⟨htree', hjournal', hdraws'⟩, hresults⟩ := renderAll_alike parallel (render_congr h)
  rw [hexec, hexec']
  refine ⟨hresults.imp Eq.symm id, ⟨?_, fun hw => ?_, ?_⟩⟩
  · rw [hjournal, hjournal', hhost]
  · rw [hdraws, hdraws', hwrites hw]
  · rw [htree, htree']
    exact htwin

/-- The errors of an assembly of which chance may choose either. -/
def RivalsOf (settings : AssemblySettings) (environment : Environment) (t : FileTree)
    (jobs : List Job) : AssemblyError → AssemblyError → Prop :=
  Rivals settings.parallel
    (faults t environment.tokens
      (jobs.filter fun job => !environment.isExcluded job.candidate.path))

/-- Assemblies whose jobs match are alike but for the choice among their errors. -/
lemma run_alike (settings : AssemblySettings) {environment : Environment} {frame' : Option String}
    {jobs jobs' : List Job}
    (htwin : t₀.Twin apart t t') (hjobs : candidates t environment settings.frame = .ok jobs)
    (hjobs' : candidates t' environment frame' = .ok jobs')
    (hmatches : List.Forall₂ (Matches t₀ apart settings.output environment.tokens t t') jobs jobs') :
    Work.AlikeUpTo (RivalsOf settings environment t jobs) True (Standing t t') (t₀.Twin apart)
      (run environment settings ([] : Bus σ))
      (run environment { settings with frame := frame' } []) := by
  rintro w w' ⟨hhost, hwrites, rfl, rfl⟩
  obtain ⟨w₁, hchoose, htree, hhost₁, hchances⟩ := choose_nil hjobs
  obtain ⟨w₁', hchoose', htree', hhost₁', hchances'⟩ := choose_nil hjobs'
  have htaken := taken_matches environment hmatches
  rw [run_eq, run_eq, Work.exec_bind, Work.exec_bind, hchoose, hchoose', refused_congr hmatches]
  -- nothing has been written yet, so both trees are as they were
  have hbeside : Work.Beside True (Standing w.tree w'.tree) w₁ w₁' :=
    ⟨by rw [hhost₁, hhost₁', hhost], fun h => by rw [hchances, hchances', hwrites h], htree, htree'⟩
  rw [RivalsOf, ← filterMap_decision]
  refine (renderAll_matching _ htwin htaken).bind (fun contents => ?_) (fun _ _ h => h) w₁ w₁'
    hbeside
  exact Work.Alike.bind (writeAll_alike htaken contents) fun written => .pure _

end Assembly

end ConfigPack
