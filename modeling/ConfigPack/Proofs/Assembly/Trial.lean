import ConfigPack.Proofs.Assembly.Account
import ConfigPack.Proofs.Assembly.Writing
import ConfigPack.Proofs.FileTree.Sound
import ConfigPack.Proofs.FileTree.Sprout
import ConfigPack.Proofs.Output.Settled
import ConfigPack.Proofs.Substitution.Pass

/-!
# A trial run predicts the real run

A trial run reads the tree as it was; a real run reads the tree that its own writes have changed.
With no listeners and with different destinations no write is seen by the reading of another, so
both runs come to the same end, as long as the real run is not refused by the file system.
-/

namespace ConfigPack

variable {σ : Type}

/-- The settings of a trial run or of a real run. -/
def AssemblySettings.withTrial (settings : AssemblySettings) (dryRun : Bool) : AssemblySettings :=
  { settings with write.dryRun := dryRun }

/-- What an outcome is on trial. -/
def FileOutcome.onTrial : FileOutcome → FileOutcome
  | written | merged => dryRun
  | outcome => outcome

/-- A file as a trial run reports it. -/
def AssembledFile.onTrial (file : AssembledFile) : AssembledFile :=
  { file with outcome := file.outcome.onTrial }

/-- A report with what was written or merged as on trial. -/
def Report.onTrial (report : Report) : Report := ⟨report.files.map AssembledFile.onTrial⟩

namespace Output

/-- What is there is read where the path leads. -/
lemma readExisting_eq (tree : FileTree) (path : String) :
    readExisting tree path = (tree.readingOf (tree.walk true path)).mapError (.io path) := by
  rw [readExisting, FileTree.read, FileTree.locate]
  rcases tree.walk true path with e | landing
  · cases e <;> rfl
  · cases landing with
    | missing => rfl
    | found place =>
      simp only [bind, Except.bind, pure, Except.pure, FileTree.readingOf]
      rcases tree.readAt place with e | data
      · cases e <;> rfl
      · rfl

/-- What was read is read again where the path leads to the same. -/
lemma mergeBase_mono {tree tree' : FileTree} {draft : Draft} {base : Option ByteArray}
    (hread : ∀ data?, tree.readingOf (tree.walk true draft.path) = .ok data? →
      tree'.readingOf (tree'.walk true draft.path) = .ok data?)
    (h : mergeBase tree draft = .ok base) : mergeBase tree' draft = .ok base := by
  rw [mergeBase] at h ⊢
  split at h
  next heligible =>
    rw [if_pos heligible]
    rw [readExisting_eq] at h ⊢
    rcases hr : tree.readingOf (tree.walk true draft.path) with io | data?
    · rw [hr] at h
      cases h
    · rw [hr] at h
      rw [hread data? hr]
      exact h
  next heligible =>
    rw [if_neg heligible]
    exact h

/-- A write that is settled would have been one. -/
lemma settled_onTrial {draft draft' : Draft} {base : Option ByteArray} {content : ByteArray}
    {outcome : FileOutcome} (h : settled draft base = .ok (draft', content, outcome)) :
    outcome.onTrial = .dryRun := by
  cases base with
  | none =>
    cases h
    rfl
  | some existing =>
    obtain ⟨opened, _, h⟩ := Result.bind_eq_ok.1 h
    obtain ⟨bytes, _, h⟩ := Result.bind_eq_ok.1 h
    cases h
    rfl

/-- How a write ends with no listeners, in a real run from one tree and on trial from another one
which reads the same at the path as long as the first can be read. -/
inductive SameEnd (grown : FileTree) (path : String) :
    Except OutputError Written × World σ → Except OutputError Written → Prop
  | refused {above : String} {io : IoError} {w : World σ} {trial : Except OutputError Written} :
    SameEnd grown path (.error (.io above io), w) trial
  | failed {e : OutputError} {w : World σ} : SameEnd grown path (.error e, w) (.error e)
  | written {outcome : FileOutcome} {chance : WriteChance} {content : ByteArray} {w : World σ} :
    outcome.onTrial = .dryRun → grown.replace chance path content = (w.tree, .ok ()) →
    SameEnd grown path (.ok ⟨path, outcome⟩, w) (.ok ⟨path, .dryRun⟩)

/-- A write on trial ends as what it would be merged with says. -/
lemma write_dry_result {mode : MergeMode} {path : String} {data : ByteArray} (v : World σ) :
    ((write ⟨mode, true⟩ [] path data).exec v).1 =
      (mergeBase v.tree (Draft.start mode path data) >>= settled (Draft.start mode path data)).map
        fun finished => ⟨finished.1.path, .dryRun⟩ := by
  have hstart : (Work.withHost OutputError.hook (pure (Draft.start mode path data))).exec v =
      (.ok (Draft.start mode path data), v) := rfl
  rw [← finish_nil_result]
  simp only [write, emitWrite_nil, Work.exec_bind, hstart, Bool.not_true, Bool.false_eq_true,
    ↓reduceIte]
  rcases (finish (Draft.start mode path data) []).exec v with ⟨e | ⟨draft, content, outcome⟩, v'⟩
  · rfl
  · simp only [Work.exec_log, Work.exec_pure, Except.map]

/-- A write on trial ends as the real one does when both read the same. -/
lemma write_sameEnd {mode : MergeMode} {path : String} {data : ByteArray} {w v : World σ}
    (hread : ∀ data?,
      (w.tree.readied path).readingOf ((w.tree.readied path).walk true path) = .ok data? →
        v.tree.readingOf (v.tree.walk true path) = .ok data?) :
    SameEnd (w.tree.readied path) path ((write ⟨mode, false⟩ [] path data).exec w)
      ((write ⟨mode, true⟩ [] path data).exec v).1 := by
  rcases hreal : (write ⟨mode, false⟩ [] path data).exec w with ⟨result, w'⟩
  have hends := write_ends hreal
  rw [write_dry_result]
  cases hends with
  | refused => exact .refused
  | unsettled hbase hsettled =>
    rw [mergeBase_mono hread hbase]
    change SameEnd _ _ _ ((settled _ _).map _)
    rw [hsettled]
    exact .failed
  | replaced hbase hsettled hreplace =>
    rw [mergeBase_mono hread hbase]
    change SameEnd _ _ _ ((settled _ _).map _)
    have hpath : _ = path := settled_path hsettled
    rw [hsettled]
    change SameEnd _ _ _ (.ok ⟨_, _⟩)
    rw [hpath]
    exact .written (settled_onTrial hsettled) hreplace

end Output

namespace FileTree

/-- Making the directory above a path below the directory is part of writing there. -/
lemma WrittenBelow.readied {t g : FileTree} {output path : String} {below : List String}
    {taken : List (List String)} (hbelow : ".." ∉ below)
    (hnames : Path.names path = Path.names output ++ below)
    (habs : Path.isAbsolute path = Path.isAbsolute output) (h : t.WrittenBelow output taken g) :
    t.WrittenBelow output taken (g.readied path) := by
  rw [FileTree.readied]
  split
  next above habove =>
    split
    · exact h
    · exact h.makeDirectories hbelow hnames habs (isAncestor_of_parent habove)
  next => exact h

end FileTree

namespace Assembly

variable {environment : Environment} {settings : AssemblySettings} {t : FileTree}
  {taken : List (List String)}

/-! ## Writing candidates -/

/-- How the writing of candidates ends with no listeners, in a real run and on trial: the real run
is refused by the file system, or both fail with one error, or both succeed. -/
inductive SameEnd {α : Type} (onTrial : α → α) (Left : FileTree → Prop) :
    Except AssemblyError α × World σ → Except AssemblyError α → Prop
  | refused {above : String} {io : IoError} {w : World σ} {trial : Except AssemblyError α} :
    SameEnd onTrial Left (.error (.output (.io above io)), w) trial
  | failed {e : AssemblyError} {w : World σ} : SameEnd onTrial Left (.error e, w) (.error e)
  | written {a : α} {w : World σ} : Left w.tree → SameEnd onTrial Left (.ok a, w) (.ok (onTrial a))

/-- The destinations of candidates are different, as far as they have any. -/
def Different (a b : Candidate) : Prop :=
  Path.staysInside a.path = true → Path.staysInside b.path = true →
    Path.names a.path ≠ Path.names b.path

/-- So does a candidate whose destination is new. -/
lemma writeOne_sameEnd {item : Job × ByteArray} {w v : World σ} (hrooted : t.Rooted)
    (hv : v.tree = t) (h : t.WrittenBelow settings.output taken w.tree)
    (hnew : Path.staysInside item.1.candidate.path = true →
      Path.names item.1.candidate.path ∉ taken) :
    SameEnd AssembledFile.onTrial
      (fun g => Path.staysInside item.1.candidate.path = true ∧
        t.WrittenBelow settings.output (Path.names item.1.candidate.path :: taken) g)
      ((writeOne (settings.withTrial false) [] item).exec w)
      ((writeOne (settings.withTrial true) [] item).exec v).1 := by
  subst hv
  have hdestination : ∀ b, destination (settings.withTrial b).output item.1.candidate.path =
      destination settings.output item.1.candidate.path := fun _ => rfl
  simp only [writeOne, Work.exec_bind, Work.exec_liftM, Work.exec_within, hdestination]
  rcases hpath : destination settings.output item.1.candidate.path with e | path
  · exact .failed
  obtain ⟨_, hin, rfl⟩ := destination_ok hpath
  dsimp only
  obtain ⟨hrel, hbelow⟩ := Path.staysInside_iff.1 hin
  have hnames : Path.names (Path.join settings.output item.1.candidate.path) =
    Path.names settings.output ++ Path.names item.1.candidate.path := Path.names_join hrel
  have habs : Path.isAbsolute (Path.join settings.output item.1.candidate.path) =
    Path.isAbsolute settings.output := Path.isAbsolute_join hrel
  -- the real run makes the directory above first, and then both read the same
  have hgrown := h.readied hbelow hnames habs
  have hend : Output.SameEnd _ _
      ((Output.write (settings.withTrial false).write [] _ item.2).exec w)
      ((Output.write (settings.withTrial true).write [] _ item.2).exec v).1 :=
    Output.write_sameEnd fun data? => hgrown.reading hbelow hnames habs hrooted (hnew hin)
  generalize (Output.write (settings.withTrial false).write [] _ item.2).exec w = real at hend ⊢
  generalize (Output.write (settings.withTrial true).write [] _ item.2).exec v = trial at hend ⊢
  obtain ⟨result, v'⟩ := trial
  cases hend with
  | refused => exact .refused
  | failed => exact .failed
  | @written outcome _ content w' houtcome hreplace =>
    have hleft : Path.staysInside item.1.candidate.path = true ∧ v.tree.WrittenBelow settings.output
        (Path.names item.1.candidate.path :: taken) w'.tree := by
      -- only the destination of the candidate holds a new file now
      refine ⟨hin, hgrown.replace hbelow hnames habs ?_ hreplace⟩
      obtain ⟨_, name, _, hentry, hlast, _⟩ := FileTree.replace_ok hreplace
      obtain ⟨above, hcandidate⟩ := names_of_getLast? hrel hentry.isEntryName hlast
      simp [hcandidate]
    have htrial : AssembledFile.onTrial
        ⟨item.1.candidate.path, item.1.candidate.origin, outcome, none⟩ =
        ⟨item.1.candidate.path, item.1.candidate.origin, .dryRun, none⟩ := by
      rw [AssembledFile.onTrial, houtcome]
    change SameEnd _ _ (.ok (⟨_, _, outcome, none⟩ : AssembledFile), _)
      (.ok (⟨_, _, .dryRun, none⟩ : AssembledFile))
    rw [← htrial]
    exact .written hleft

/-- So do all candidates with different destinations. -/
lemma writeAll_sameEnd {items : List (Job × ByteArray)} {w v : World σ} (hrooted : t.Rooted)
    (hv : v.tree = t) (h : t.WrittenBelow settings.output taken w.tree)
    (hnew : ∀ item ∈ items, Path.staysInside item.1.candidate.path = true →
      Path.names item.1.candidate.path ∉ taken)
    (hdifferent : items.Pairwise fun a b => Different a.1.candidate b.1.candidate) :
    SameEnd (List.map AssembledFile.onTrial) (fun _ => True)
      ((writeAll (settings.withTrial false) [] items).exec w)
      ((writeAll (settings.withTrial true) [] items).exec v).1 := by
  induction items generalizing w v taken with
  | nil => exact .written (a := []) trivial
  | cons item items ih =>
    obtain ⟨hfirst, hrest⟩ := List.pairwise_cons.1 hdifferent
    have hone := writeOne_sameEnd hrooted hv h (hnew item List.mem_cons_self)
    have hstill : ((writeOne (settings.withTrial true) [] item).exec v).2.tree = t := by
      rw [writeOne_dry_still [] item rfl, hv]
    simp only [writeAll, List.mapM_cons, Work.exec_bind, Work.exec_pure]
    rcases hreal : (writeOne (settings.withTrial false) [] item).exec w with ⟨result, w₁⟩
    rcases htrial : (writeOne (settings.withTrial true) [] item).exec v with ⟨result', v₁⟩
    rw [hreal, htrial] at hone
    rw [htrial] at hstill
    cases hone with
    | refused => exact .refused
    | failed => exact .failed
    | @written file _ hleft =>
      obtain ⟨hin, hleft⟩ := hleft
      -- the file that was written has a name of its own, which none of the others reads
      have hothers := ih hstill hleft (fun other hother hinside hmem => by
        rcases List.mem_cons.1 hmem with hsame | hmem
        · exact hfirst other hother hin hinside hsame.symm
        · exact hnew other (List.mem_cons_of_mem _ hother) hinside hmem) hrest
      simp only [writeAll] at hothers
      dsimp only
      generalize (items.mapM (writeOne (settings.withTrial false) [])).exec w₁ = real at hothers ⊢
      generalize (items.mapM (writeOne (settings.withTrial true) [])).exec v₁ = trial at hothers ⊢
      obtain ⟨result, v₂⟩ := trial
      cases hothers with
      | refused => exact .refused
      | failed => exact .failed
      | @written files _ _ => exact .written (a := file :: files) trivial

/-! ## Assembling -/

/-- An assembly on trial changes no file. -/
lemma run_trial_still (environment : Environment) (settings : AssemblySettings) (bus : Bus σ) :
    Work.Still (run environment (settings.withTrial true) bus) := by
  rw [run_eq]
  refine .bind (choose_still _ _ _) fun chosen => .bind (renderAll_still _ _ _) fun texts => ?_
  exact .bind (.mapM fun item _ => writeOne_dry_still bus item rfl) fun written => .pure _

/-- Refused candidates are the same on trial. -/
lemma onTrial_refused {frame : Option String} {refused : List AssembledFile} {taken : List Job}
    {w w' : World σ} (h : (choose environment frame []).exec w = (.ok (refused, taken), w')) :
    refused.map AssembledFile.onTrial = refused := by
  obtain ⟨jobs, sides, _, hdecides, rfl, _⟩ := choose_ok h
  refine (List.map_congr_left fun file hfile => ?_).trans (List.map_id _)
  obtain ⟨side, hside, hleft⟩ := List.mem_filterMap.1 hfile
  obtain rfl := Sum.getLeft?_eq_some_iff.1 hleft
  have hout := hdecides.not_write file hside
  obtain ⟨path, origin, outcome, reason⟩ := file
  cases outcome with
  | skipped | excluded => rfl
  | written | merged | dryRun => cases hout

/-- With no listeners the tree alone decides what is chosen. -/
lemma choose_nil_result (environment : Environment) (frame : Option String) (w : World σ) :
    ((choose environment frame []).exec w).1 =
      (candidates w.tree environment frame).map fun jobs =>
        ((jobs.map (decision environment)).filterMap Sum.getLeft?,
          (jobs.map (decision environment)).filterMap Sum.getRight?) := by
  rcases hjobs : candidates w.tree environment frame with e | jobs
  · obtain ⟨w₁, hframed, _⟩ := frameJobs_exec frame w
    rcases Result.bind_eq_error.1 hjobs with hfailed | ⟨_, _, hpure⟩
    · rw [choose, Work.exec_bind, hframed, hfailed]
      rfl
    · cases hpure
  · obtain ⟨w', hchoose, _⟩ := choose_nil hjobs
    rw [hchoose]
    rfl

/-- A trial run leaves all files as they are.  With no listeners, with different destinations, and
with an output directory that has no links and goes upwards only from directories that are there, it
ends as a real run in the same tree does when the file system does not refuse that: with the same
report, what was written or merged being on trial, or with the same error.  Only where candidates
are rendered side by side and several of them fail, chance may have the two runs blame different
ones of these. -/
theorem trial_predicts_run {environment : Environment} {w v : World σ} (hsame : v.tree = w.tree)
    (hrooted : w.tree.Rooted) (hup : w.tree.UpwardsFromThere settings.output)
    (hfree : ∀ base, w.tree.LeadsTo settings.output base → w.tree.LinkFree base)
    (hdifferent : (chosen environment settings.frame ([] : Bus σ) w).Pairwise
      fun a b => Different a.candidate b.candidate) :
    ((run environment (settings.withTrial true) []).exec v).2.tree = v.tree ∧
      ((∀ path io, ((run environment (settings.withTrial false) []).exec w).1 ≠
          .error (.output (.io path io))) →
        ((run environment (settings.withTrial true) []).exec v).1 =
            ((run environment (settings.withTrial false) []).exec w).1.map Report.onTrial ∨
          ∃ blamed other,
            Rivals settings.parallel
              (faults w.tree environment.tokens (chosen environment settings.frame [] w))
              blamed other ∧
            ((run environment (settings.withTrial true) []).exec v).1 = .error blamed ∧
            ((run environment (settings.withTrial false) []).exec w).1 = .error other) := by
  refine ⟨run_trial_still _ _ _ v, fun hio => ?_⟩
  have hframe : ∀ b, (settings.withTrial b).frame = settings.frame := fun _ => rfl
  have hparallel : ∀ b, (settings.withTrial b).parallel = settings.parallel := fun _ => rfl
  simp only [run_eq, hframe, hparallel, Work.exec_bind, Work.exec_pure] at hio ⊢
  have hstill := choose_still environment settings.frame ([] : Bus σ) w
  have hstill' := choose_still environment settings.frame ([] : Bus σ) v
  have hchoose := choose_nil_result environment settings.frame w
  have hchoose' := choose_nil_result environment settings.frame v
  rw [hsame, ← hchoose] at hchoose'
  rw [chosen] at hdifferent ⊢
  rcases hchosen : (choose environment settings.frame ([] : Bus σ)).exec w with
    ⟨e | ⟨refused, taken⟩, w₁⟩
  all_goals
    rcases hchosen' : (choose environment settings.frame ([] : Bus σ)).exec v with ⟨result, v₁⟩
    rw [hchosen, hchosen'] at hchoose'
    obtain rfl : result = _ := hchoose'
  · exact .inl rfl
  rw [hchosen] at hio hstill hdifferent
  rw [hchosen'] at hstill'
  dsimp only at hio hstill hstill' hdifferent ⊢
  -- candidates are rendered from the same tree in both runs
  have hcontents : taken.map (render w₁.tree environment.tokens) =
      taken.map (render v₁.tree environment.tokens) := by
    rw [hstill, hstill', hsame]
  obtain ⟨result, result', v₂, w₂, hrender', hrender, ⟨htree', -⟩, ⟨htree, -⟩, hresults⟩ :=
    renderAll_alike settings.parallel hcontents
  rw [hrender] at hio
  rw [hrender, hrender']
  rw [hstill', hsame] at hresults htree'
  rw [hstill] at htree
  -- either both are rendered alike, or each run blames one of the rivals
  rcases hresults with rfl | ⟨blamed, other, rfl, rfl, hrivals⟩
  swap
  · exact .inr ⟨blamed, other, hrivals, rfl, rfl⟩
  rcases result' with e | texts
  · exact .inl rfl
  dsimp only at hio ⊢
  have hlength := (Result.mapM_eq_ok.1 (renderAll_ok hrender).1).length_eq
  have hitems : (taken.zip texts).Pairwise fun a b => Different a.1.candidate b.1.candidate := by
    rw [← List.map_fst_zip hlength.le, List.pairwise_map] at hdifferent
    exact hdifferent
  have hbelow : w.tree.WrittenBelow settings.output [] w₂.tree := by
    rw [htree]
    exact hrooted.writtenBelow hup hfree
  have hend := writeAll_sameEnd hrooted htree' hbelow (by simp) hitems
  generalize (writeAll (settings.withTrial false) [] (taken.zip texts)).exec w₂ = real at hend hio ⊢
  generalize (writeAll (settings.withTrial true) [] (taken.zip texts)).exec v₂ = trial at hend ⊢
  obtain ⟨result, v⟩ := trial
  cases hend with
  | @refused above io => exact absurd rfl (hio above io)
  | failed => exact .inl rfl
  | @written files =>
    refine .inl ?_
    simp [Except.map, Report.onTrial, onTrial_refused hchosen]

/-- Whether the file system refused what a run asked of it. -/
def isRefused : Except AssemblyError Report → Bool
  | .error (.output (.io _ _)) => true
  | _ => false

/-- A directory that is spelled through one that is missing, with a file that is no document. -/
def detourTree : FileTree :=
  ⟨[(["y"], .directory), (["y", "a.json"], .file "\x7b".toUTF8 FileTree.newFileMode)], []⟩

/-- One file that is built. -/
def detourEnvironment : Environment :=
  ⟨.empty, .empty, .ofList [("a", ⟨"a.json", "\x7b\x7d"⟩)]⟩

/-- The settings of an assembly whose output directory goes up and down again. -/
def detourSettings : AssemblySettings := ⟨none, "x/../y", ⟨.deep, false⟩, true⟩

/-- A token that leads back to itself. -/
def circle : Substitution.Variables := ⟨[("()", "a()")], by decide +kernel⟩

/-- Two built files with that token. -/
def circleEnvironment : Environment :=
  ⟨circle, .empty, .ofList [("a", ⟨"a.txt", "()"⟩), ("b", ⟨"b.txt", "()"⟩)]⟩

/-- The settings of an assembly into a directory of its own. -/
def circleSettings : AssemblySettings := ⟨none, "y", ⟨.off, false⟩, true⟩

/-- The token is never replaced for good. -/
lemma circle_not_converged : Substitution.substitute "()" circle = .error ⟨3⟩ := by
  have hchanges : ∀ passes ∈ List.range 3,
      Substitution.replaceEach (Substitution.passed circle passes "()") circle.entries ≠
        Substitution.passed circle passes "()" := by
    simp only [Substitution.passed, Substitution.replaceEach, Substitution.replaceOne_eq]
    decide +kernel
  refine Substitution.run_unsettled (fun passes h => hchanges passes (List.mem_range.2 h)) ?_ 0
  intro passes count hpasses
  have hbound : passes ≤ 2 := Nat.le_of_lt_succ hpasses
  refine Substitution.duringPass_short ?_ hbound count
  simp only [Substitution.duringPass, Substitution.passed, Substitution.replaceEach,
    Substitution.replaceOne_eq]
  decide +kernel

/-- The errors of the two files. -/
def circleFaults : List AssemblyError := [.notConverged "a.txt" 3, .notConverged "b.txt" 3]

/-- Both files fail, and chance says which of them is blamed. -/
lemma circle_blames (dryRun : Bool) (chances : Chances) :
    ((run circleEnvironment (circleSettings.withTrial dryRun) []).exec
        (⟨⟨#[], ()⟩, detourTree, chances⟩ : World Unit)).1 =
      .error (circleFaults.getD (chances.reports 0 % 2) (.notConverged "a.txt" 3)) := by
  have hcontents : (builderJobs circleEnvironment).map (render detourTree circle) =
      circleFaults.map .error := by
    have hjobs : builderJobs circleEnvironment =
        [builderJob "a" ⟨"a.txt", "()"⟩, builderJob "b" ⟨"b.txt", "()"⟩] := by decide +kernel
    simp only [hjobs, List.map_cons, List.map_nil, render, builderJob, renderText,
      circle_not_converged, circleFaults]
  obtain ⟨w₁, hchoose, htree, hchances⟩ : ∃ w₁,
      (choose circleEnvironment none []).exec (⟨⟨#[], ()⟩, detourTree, chances⟩ : World Unit) =
        (.ok ([], builderJobs circleEnvironment), w₁) ∧
      w₁.tree = detourTree ∧ w₁.chances = chances := ⟨_, rfl, rfl, rfl⟩
  have hframe : (circleSettings.withTrial dryRun).frame = none := rfl
  have hparallel : (circleSettings.withTrial dryRun).parallel = true := rfl
  have htokens : circleEnvironment.tokens = circle := rfl
  rw [run_eq, hframe, hparallel, htokens, Work.exec_bind, hchoose]
  simp only [Work.exec_bind, renderAll_parallel, htree, hchances, hcontents]
  rfl

/-- Chances that have the second of several errors reported. -/
def secondReported : Chances := ⟨fun _ => 1, fun _ => default⟩

/-- The real run makes a missing directory, finds the file behind it and fails; the trial run finds
nothing there and does not.  And where two candidates are rendered side by side and both fail,
chance may have the trial run blame the first and the real run the second. -/
theorem detour_is_not_predicted :
    ((∀ e ∈ detourTree.nodes, ∀ target, e.2 ≠ .link target) ∧
      (chosen detourEnvironment none [] (⟨⟨#[], ()⟩, detourTree, .calm⟩ : World Unit)).length = 1 ∧
      ((run detourEnvironment (detourSettings.withTrial false) []).exec
        (⟨⟨#[], ()⟩, detourTree, .calm⟩ : World Unit)).1.mapError AssemblyError.message =
          .error ("cannot merge x/../y/a.json: malformed json: existing content: " ++
            "EOF while parsing an object at line 1 column 1") ∧
      (∀ path io, ((run detourEnvironment (detourSettings.withTrial false) []).exec
        (⟨⟨#[], ()⟩, detourTree, .calm⟩ : World Unit)).1 ≠ .error (.output (.io path io))) ∧
      ((run detourEnvironment (detourSettings.withTrial true) []).exec
        (⟨⟨#[], ()⟩, detourTree, .calm⟩ : World Unit)).1 ≠
        ((run detourEnvironment (detourSettings.withTrial false) []).exec
          (⟨⟨#[], ()⟩, detourTree, .calm⟩ : World Unit)).1.map Report.onTrial) ∧
    ((run circleEnvironment (circleSettings.withTrial true) []).exec
        (⟨⟨#[], ()⟩, detourTree, .calm⟩ : World Unit)).1 = .error (.notConverged "a.txt" 3) ∧
    ((run circleEnvironment (circleSettings.withTrial false) []).exec
        (⟨⟨#[], ()⟩, detourTree, secondReported⟩ : World Unit)).1 =
      .error (.notConverged "b.txt" 3) := by
  refine ⟨?_, circle_blames true .calm, circle_blames false secondReported⟩
  have hnotIo : isRefused ((run detourEnvironment (detourSettings.withTrial false) []).exec
      (⟨⟨#[], ()⟩, detourTree, .calm⟩ : World Unit)).1 = false := by decide +kernel
  have hreal : ((run detourEnvironment (detourSettings.withTrial false) []).exec
      (⟨⟨#[], ()⟩, detourTree, .calm⟩ : World Unit)).1.toOption.isSome = false := by decide +kernel
  have htrial : ((run detourEnvironment (detourSettings.withTrial true) []).exec
      (⟨⟨#[], ()⟩, detourTree, .calm⟩ : World Unit)).1.toOption.isSome = true := by decide +kernel
  refine ⟨by simp [detourTree], by decide +kernel, by decide +kernel, fun path io h => ?_,
    fun h => ?_⟩
  · rw [h] at hnotIo
    cases hnotIo
  · rw [h] at htrial
    rcases hr : ((run detourEnvironment (detourSettings.withTrial false) []).exec
      (⟨⟨#[], ()⟩, detourTree, .calm⟩ : World Unit)).1 with e | report
    · rw [hr] at htrial
      cases htrial
    · rw [hr] at hreal
      cases hreal

/-- Documents that are written below a directory that is there, through the one above it. -/
def siblingTree : FileTree :=
  ⟨[(["x"], .directory), (["y"], .directory),
    (["y", "a.json"], .file "\x7b".toUTF8 FileTree.newFileMode)], []⟩

/-- Two files that are built, one of which cannot be merged. -/
def siblingEnvironment : Environment :=
  ⟨.empty, .empty, .ofList [("a", ⟨"b/new.json", "\x7b\x7d"⟩), ("b", ⟨"a.json", "\x7b\x7d"⟩)]⟩

/-- A real run that fails is predicted, although chance differs. -/
theorem sibling_is_predicted :
    ((run siblingEnvironment (detourSettings.withTrial true) []).exec
        (⟨⟨#[], ()⟩, siblingTree, secondReported⟩ : World Unit)).2.tree = siblingTree ∧
      ((run siblingEnvironment (detourSettings.withTrial true) []).exec
        (⟨⟨#[], ()⟩, siblingTree, secondReported⟩ : World Unit)).1 =
        ((run siblingEnvironment (detourSettings.withTrial false) []).exec
          (⟨⟨#[], ()⟩, siblingTree, .calm⟩ : World Unit)).1.map Report.onTrial := by
  have hnotIo : isRefused ((run siblingEnvironment (detourSettings.withTrial false) []).exec
      (⟨⟨#[], ()⟩, siblingTree, .calm⟩ : World Unit)).1 = false := by decide +kernel
  have hrooted : siblingTree.Rooted := by
    refine (FileTree.sound_of_nodes (by decide +kernel) ?_ rfl).rooted
    simp only [siblingTree, List.forall_mem_cons]
    exact ⟨rfl, rfl, rfl, by simp⟩
  have hnames : Path.names "x/../y" = ["x", "..", "y"] := by decide +kernel
  have hup : siblingTree.UpwardsFromThere "x/../y" := by
    intro front rest hsplit
    rw [hnames] at hsplit
    obtain rfl : front = ["x"] := by
      rcases front with _ | ⟨a, _ | ⟨b, _ | ⟨c, front⟩⟩⟩ <;> simp_all
    exact ⟨["x"], .down (by decide) rfl .here⟩
  have hchosen : (chosen siblingEnvironment none [] (⟨⟨#[], ()⟩, siblingTree, .calm⟩ : World Unit)) =
      [builderJob "a" ⟨"b/new.json", "\x7b\x7d"⟩, builderJob "b" ⟨"a.json", "\x7b\x7d"⟩] := by
    decide +kernel
  have hfree : ∀ base, siblingTree.LeadsTo detourSettings.output base → siblingTree.LinkFree base :=
    fun base _ => FileTree.linkFree_of_nodes (by simp [siblingTree]) base
  have hdifferent : (chosen siblingEnvironment detourSettings.frame []
      (⟨⟨#[], ()⟩, siblingTree, .calm⟩ : World Unit)).Pairwise
      fun a b => Different a.candidate b.candidate := by
    rw [show detourSettings.frame = none from rfl, hchosen]
    refine List.pairwise_pair.2 fun _ _ => ?_
    decide +kernel
  have hrendered : (faults siblingTree siblingEnvironment.tokens
      (chosen siblingEnvironment detourSettings.frame []
        (⟨⟨#[], ()⟩, siblingTree, .calm⟩ : World Unit))).isEmpty = true := by decide +kernel
  obtain ⟨htree, hsame⟩ := trial_predicts_run (w := ⟨⟨#[], ()⟩, siblingTree, .calm⟩)
    (v := ⟨⟨#[], ()⟩, siblingTree, secondReported⟩) rfl hrooted hup hfree hdifferent
  refine ⟨htree, (hsame fun path io h => ?_).resolve_right ?_⟩
  · rw [h] at hnotIo
    cases hnotIo
  · rintro ⟨blamed, _, hrivals, -⟩
    have hnone := List.isEmpty_iff.1 hrendered
    exact absurd hrivals.blamed (hnone ▸ List.not_mem_nil)

end Assembly

end ConfigPack
