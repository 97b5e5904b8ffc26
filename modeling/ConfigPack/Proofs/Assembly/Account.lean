import ConfigPack.Proofs.Assembly.Phases
import ConfigPack.Proofs.Listeners

/-!
# The report accounts for all candidates

Each candidate has one entry in the report: what listeners made of it, or what the writing of it
came to.  The refused candidates come first, then the written ones, both in the order of the
candidates; the log has the same records in the same order.
-/

namespace ConfigPack

variable {σ ε δ α β : Type}

/-! ## Records of the log -/

namespace Work

/-- A computation that records of no file what became of it. -/
def Unrecorded (action : Work σ ε α) : Prop :=
  ∀ w, (exec action w).2.journal.records = w.journal.records

/-- A line is no record. -/
lemma records_push_line (journal : Journal σ) (level : LogLevel) (text : String) :
    ({ journal with log := journal.log.push (.line level text) } : Journal σ).records =
      journal.records := by
  simp [Journal.records, LogEntry.record?]

/-- A record is put behind the others. -/
lemma records_push_file (journal : Journal σ) (record : FileRecord) :
    ({ journal with log := journal.log.push (.file record) } : Journal σ).records =
      journal.records ++ [record] := by
  simp [Journal.records, LogEntry.record?]

/-- To do nothing records nothing. -/
lemma Unrecorded.pure (a : α) : Unrecorded (pure a : Work σ ε α) := fun _ => rfl

/-- A result that is known records nothing. -/
lemma Unrecorded.liftM (result : Except ε α) : Unrecorded (liftM result : Work σ ε α) :=
  fun _ => rfl

/-- Nor does a look at the files. -/
lemma Unrecorded.look (wrap : δ → ε) (view : FileTree → Except δ α) :
    Unrecorded (look wrap view : Work σ ε α) := fun _ => rfl

/-- Nor does a change of them. -/
lemma Unrecorded.changePartly (wrap : δ → ε) (step : FileTree → FileTree × Except δ Unit) :
    Unrecorded (changePartly wrap step : Work σ ε Unit) := fun _ => rfl

/-- Nor does a new content. -/
lemma Unrecorded.replace (wrap : IoError → ε) (path : String) (data : ByteArray) :
    Unrecorded (replace wrap path data : Work σ ε Unit) := fun _ => rfl

/-- Nor does a line of the log. -/
lemma Unrecorded.log (level : LogLevel) (text : String) :
    Unrecorded (log level text : Work σ ε Unit) := fun w => by
  rw [exec_log]
  exact records_push_line w.journal level text

/-- Nor do listeners. -/
lemma Unrecorded.withHost (wrap : δ → ε) (action : ExceptT δ (StateM σ) α) :
    Unrecorded (withHost wrap action) := fun w => by
  rw [exec_withHost]
  rfl

/-- A sequence of two steps that record nothing records nothing. -/
lemma Unrecorded.bind {action : Work σ ε α} {next : α → Work σ ε β} (h : Unrecorded action)
    (h' : ∀ a, Unrecorded (next a)) : Unrecorded (action >>= next) := by
  intro w
  rw [exec_bind]
  have hfirst := h w
  rcases hx : exec action w with ⟨e | a, w'⟩
  all_goals rw [hx] at hfirst
  · exact hfirst
  · exact (h' a w').trans hfirst

/-- Errors do not matter. -/
lemma Unrecorded.within {action : Work σ δ α} (wrap : δ → ε) (h : Unrecorded action) :
    Unrecorded (within wrap action) := fun w => h w

/-- So the records are those before. -/
lemma Unrecorded.records {action : Work σ ε α} (h : Unrecorded action) {w w' : World σ}
    {result : Except ε α} (hw : exec action w = (result, w')) :
    w'.journal.records = w.journal.records := by
  have := h w
  rwa [hw] at this

end Work

/-- An outcome of a candidate that reached the writing. -/
def FileOutcome.isWrite : FileOutcome → Bool
  | written | merged | dryRun => true
  | skipped | excluded => false

/-- The record of a file of a report. -/
def AssembledFile.record (file : AssembledFile) : FileRecord :=
  ⟨file.path, file.outcome, file.reason⟩

/-! ## Writing -/

namespace Output

/-- To finish a draft records nothing. -/
lemma finish_unrecorded (draft : Draft) (bus : Bus σ) : Work.Unrecorded (finish draft bus) := by
  refine .bind (.look _ _) fun base => ?_
  split
  · exact .pure _
  · refine .bind (.log _ _) fun _ => .bind (.liftM _) fun draft => ?_
    exact .bind (.withHost _ _) fun draft => .bind (.liftM _) fun content => .pure _

/-- Nor does the parent of a path. -/
lemma ensureParent_unrecorded (path : String) :
    Work.Unrecorded (ensureParent path : Work σ OutputError Unit) := by
  rw [ensureParent]
  split
  · split
    · exact .pure _
    · exact .changePartly _ _
  · exact .pure _

/-- Nor does a write. -/
lemma write_unrecorded (settings : WriteSettings) (bus : Bus σ) (path : String)
    (data : ByteArray) : Work.Unrecorded (write settings bus path data) := by
  refine .bind (.withHost _ _) fun draft => ?_
  cases hdry : settings.dryRun with
  | true =>
    simp only [Bool.not_true, Bool.false_eq_true, ↓reduceIte]
    exact .bind (finish_unrecorded _ _) fun finished => .bind (.log _ _) fun _ => .pure _
  | false =>
    simp only [Bool.not_false, Bool.false_eq_true, ↓reduceIte]
    refine .bind (ensureParent_unrecorded _) fun _ => ?_
    exact .bind (finish_unrecorded _ _) fun finished => .bind (.replace _ _ _) fun _ => .pure _

/-- A finished draft was written new or merged. -/
lemma finish_outcome {draft : Draft} {bus : Bus σ} {finished : Draft × ByteArray × FileOutcome}
    {w w' : World σ} (h : (finish draft bus).exec w = (.ok finished, w')) :
    finished.2.2.isWrite = true := by
  obtain ⟨base, w₁, _, h⟩ := Work.exec_bind_ok.1 h
  split at h
  · cases h
    rfl
  · obtain ⟨_, _, _, h⟩ := Work.exec_bind_ok.1 h
    obtain ⟨_, _, _, h⟩ := Work.exec_bind_ok.1 h
    obtain ⟨_, _, _, h⟩ := Work.exec_bind_ok.1 h
    obtain ⟨_, _, _, h⟩ := Work.exec_bind_ok.1 h
    cases h
    rfl

/-- A write that succeeds has the outcome of a write. -/
lemma write_outcome {settings : WriteSettings} {bus : Bus σ} {path : String} {data : ByteArray}
    {written : Written} {w w' : World σ}
    (h : (write settings bus path data).exec w = (.ok written, w')) :
    written.outcome.isWrite = true := by
  obtain ⟨draft, w₁, _, h⟩ := Work.exec_bind_ok.1 h
  cases hdry : settings.dryRun with
  | true =>
    simp only [hdry, Bool.not_true, Bool.false_eq_true, ↓reduceIte] at h
    obtain ⟨_, _, _, h⟩ := Work.exec_bind_ok.1 h
    obtain ⟨_, _, _, h⟩ := Work.exec_bind_ok.1 h
    cases h
    rfl
  | false =>
    simp only [hdry, Bool.not_false, Bool.false_eq_true, ↓reduceIte] at h
    obtain ⟨_, _, _, h⟩ := Work.exec_bind_ok.1 h
    obtain ⟨finished, _, hfinished, h⟩ := Work.exec_bind_ok.1 h
    obtain ⟨_, _, _, h⟩ := Work.exec_bind_ok.1 h
    cases h
    exact finish_outcome hfinished

end Output

/-! ## Listeners -/

/-- Listeners that leave the origins of candidates alone. -/
def Bus.LeavesOrigin (bus : Bus σ) : Prop :=
  ∀ l ∈ bus, ∀ c c' s s', (l.onCandidate c).run.run s = (.ok c', s') → c'.origin = c.origin

/-- Listeners that take no reason away, as those that only ever skip candidates. -/
def Bus.KeepsReasons (bus : Bus σ) : Prop :=
  ∀ l ∈ bus, ∀ c c' s s', (l.onCandidate c).run.run s = (.ok c', s') →
    ∀ r, c.skipReason = some r → c'.skipReason = some r

/-- The first of two reasons to skip a candidate is kept. -/
lemma Candidate.skip_reason {c : Candidate} {r r' : String} (h : c.skipReason = some r) :
    (c.skip r').skipReason = some r := by
  rw [Candidate.skip, h]
  rfl

namespace Bus

variable {bus : Bus σ}

/-- A bus of listeners that leave origins leaves them. -/
lemma LeavesOrigin.emitCandidate (hbus : bus.LeavesOrigin) {c c' : Candidate} {s s' : σ}
    (h : (bus.emitCandidate c).run.run s = (.ok c', s')) : c'.origin = c.origin :=
  emit_related (R := fun a b : Candidate => b.origin = a.origin) (fun _ => rfl)
    (fun _ _ _ hab hbc => hbc.trans hab) hbus h

/-- A bus of listeners that keep reasons keeps them. -/
lemma KeepsReasons.emitCandidate (hbus : bus.KeepsReasons) {c c' : Candidate} {s s' : σ}
    {r : String} (h : (bus.emitCandidate c).run.run s = (.ok c', s'))
    (hr : c.skipReason = some r) : c'.skipReason = some r :=
  emit_related (R := fun a b : Candidate => ∀ r, a.skipReason = some r → b.skipReason = some r)
    (fun _ _ h => h) (fun _ _ _ hab hbc r ha => hbc r (hab r ha)) hbus h r hr

/-- The listeners of a bus hear after those in front of them. -/
lemma emitCandidate_append {front back : Bus σ} {c final : Candidate} {s s' : σ}
    (h : ((front ++ back).emitCandidate c).run.run s = (.ok final, s')) :
    ∃ c₁ s₁, (front.emitCandidate c).run.run s = (.ok c₁, s₁) ∧
      (back.emitCandidate c₁).run.run s₁ = (.ok final, s') := by
  rw [emitCandidate, emit, List.foldlM_append] at h
  exact Work.run_bind_ok.1 h

end Bus

namespace Assembly

variable {environment : Environment} {settings : AssemblySettings} {bus : Bus σ}

/-- What a report tells of a candidate that listeners, hearing of it in the state `s`, made
`final` of. -/
structure Tells (environment : Environment) (bus : Bus σ) (job : Job) (s : σ) (final : Candidate)
    (file : AssembledFile) : Prop where
  path : file.path = final.path
  origin : file.origin = job.candidate.origin
  skipped : ∀ r, final.skipReason = some r → file.outcome = .skipped ∧ file.reason = some r
  excluded : final.skipReason = none → environment.isExcluded final.path = true →
    file.outcome = .excluded ∧ file.reason = none
  wrote : final.skipReason = none → environment.isExcluded final.path = false →
    file.outcome.isWrite = true ∧ file.reason = none
  /-- A reason that some listeners give counts when those behind them keep reasons. -/
  first : ∀ front back c s₁ r, bus = front ++ back → back.KeepsReasons →
    (front.emitCandidate job.candidate).run.run s = (.ok c, s₁) → c.skipReason = some r →
    file.outcome = .skipped ∧ file.reason = some r

/-- The files that are told of candidates, each after the listeners heard of those before it. -/
inductive Accounts (environment : Environment) (bus : Bus σ) :
    σ → List Job → List AssembledFile → σ → Prop
  | nil {s} : Accounts environment bus s [] [] s
  | cons {s s₁ s₂ job jobs final file files} :
    (bus.emitCandidate job.candidate).run.run s = (.ok final, s₁) →
    Tells environment bus job s final file →
    Accounts environment bus s₁ jobs files s₂ →
    Accounts environment bus s (job :: jobs) (file :: files) s₂

/-! ## Deciding -/

/-- What is decided about a job of whose candidate listeners made `final`. -/
def sideOf (environment : Environment) (job : Job) (final : Candidate) : AssembledFile ⊕ Job :=
  match refusal? environment final with
  | none => .inr { job with candidate := final }
  | some outcome => .inl ⟨final.path, final.origin, outcome, final.skipReason⟩

/-- What is decided about jobs, each after the listeners heard of those before it. -/
inductive Decides (environment : Environment) (bus : Bus σ) :
    σ → List Job → List (AssembledFile ⊕ Job) → σ → Prop
  | nil {s} : Decides environment bus s [] [] s
  | cons {s s₁ s₂ job jobs final sides} :
    (bus.emitCandidate job.candidate).run.run s = (.ok final, s₁) →
    Decides environment bus s₁ jobs sides s₂ →
    Decides environment bus s (job :: jobs) (sideOf environment job final :: sides) s₂

/-- A candidate is decided by what the listeners leave of it, and a refusal is recorded. -/
lemma selectOne_ok {job : Job} {side : AssembledFile ⊕ Job} {w w' : World σ}
    (h : (selectOne environment bus job).exec w = (.ok side, w')) :
    ∃ final, (bus.emitCandidate job.candidate).run.run w.journal.host =
        (.ok final, w'.journal.host) ∧
      side = sideOf environment job final ∧
      w'.journal.records =
        w.journal.records ++ side.getLeft?.toList.map AssembledFile.record := by
  obtain ⟨final, w₁, hheard, h⟩ := Work.exec_bind_ok.1 h
  have hrecords := (Work.Unrecorded.withHost _ _).records hheard
  rw [Work.exec_withHost, Prod.mk.injEq, Result.mapError_eq_ok] at hheard
  obtain ⟨hheard, rfl⟩ := hheard
  refine ⟨final, ?_⟩
  rw [sideOf]
  cases hrefusal : refusal? environment final with
  | none =>
    rw [hrefusal] at h
    cases h
    exact ⟨Prod.ext hheard rfl, rfl, by simpa using hrecords⟩
  | some outcome =>
    rw [hrefusal] at h
    obtain ⟨_, w₂, hlog, h⟩ := Work.exec_bind_ok.1 h
    obtain ⟨_, w₃, hrecord, h⟩ := Work.exec_bind_ok.1 h
    have hlogged := (Work.Unrecorded.log _ _).records hlog
    cases hlog
    cases hrecord
    cases h
    refine ⟨Prod.ext hheard rfl, rfl, ?_⟩
    rw [Work.records_push_file, hlogged, hrecords]
    rfl

/-- All candidates are decided in their order. -/
lemma decided_ok {jobs : List Job} {sides : List (AssembledFile ⊕ Job)} {w w' : World σ}
    (h : (jobs.mapM (selectOne environment bus)).exec w = (.ok sides, w')) :
    Decides environment bus w.journal.host jobs sides w'.journal.host ∧
      w'.journal.records =
        w.journal.records ++ (sides.filterMap Sum.getLeft?).map AssembledFile.record := by
  induction jobs generalizing w sides with
  | nil =>
    cases h
    exact ⟨.nil, by simp⟩
  | cons job jobs ih =>
    obtain ⟨side, others, w₁, hone, hothers, rfl⟩ := Work.exec_mapM_cons_ok.1 h
    obtain ⟨final, hheard, rfl, hrecord⟩ := selectOne_ok hone
    obtain ⟨hdecides, hrecords⟩ := ih hothers
    refine ⟨.cons hheard hdecides, ?_⟩
    rw [hrecords, hrecord, List.filterMap_cons]
    cases sideOf environment job final <;> simp

/-- To list the frame records nothing. -/
lemma frameJobs_unrecorded (frame : Option String) :
    Work.Unrecorded (frameJobs frame : Work σ AssemblyError (List Job)) := by
  cases frame with
  | none => exact .pure _
  | some frame =>
    refine .bind (fun _ => rfl) fun w => ?_
    split
    · exact .bind (.look _ _) fun files => .pure _
    · exact .bind (.log _ _) fun _ => .pure _

/-- What is decided in the first phase: about each candidate, with a record of the refused ones. -/
lemma choose_ok {frame : Option String} {refused : List AssembledFile} {taken : List Job}
    {w w' : World σ} (h : (choose environment frame bus).exec w = (.ok (refused, taken), w')) :
    ∃ jobs sides, candidates w.tree environment frame = .ok jobs ∧
      Decides environment bus w.journal.host jobs sides w'.journal.host ∧
      refused = sides.filterMap Sum.getLeft? ∧ taken = sides.filterMap Sum.getRight? ∧
      w'.journal.records = w.journal.records ++ refused.map AssembledFile.record := by
  obtain ⟨w₁, hframed, _, hhost, _⟩ := frameJobs_exec frame w
  obtain ⟨framed, w₂, hframe, h⟩ := Work.exec_bind_ok.1 h
  have hrecords := (frameJobs_unrecorded frame).records hframe
  rw [hframed, Prod.mk.injEq] at hframe
  obtain ⟨hframe, rfl⟩ := hframe
  obtain ⟨_, w₃, hlog, h⟩ := Work.exec_bind_ok.1 h
  have hlogged := (Work.Unrecorded.log _ _).records hlog
  cases hlog
  obtain ⟨sides, w₄, hsides, h⟩ := Work.exec_bind_ok.1 h
  cases h
  obtain ⟨hdecides, hdecided⟩ := decided_ok hsides
  refine ⟨_, sides, candidates_of_frame hframe, hhost ▸ hdecides, rfl, rfl, ?_⟩
  rw [hdecided, hlogged, hrecords]

/-! ## Writing what was taken -/

/-- What a report tells of a job that was written. -/
structure Wrote (job : Job) (file : AssembledFile) : Prop where
  path : file.path = job.candidate.path
  origin : file.origin = job.candidate.origin
  outcome : file.outcome.isWrite = true
  reason : file.reason = none

/-- A candidate that is written is recorded with the outcome of its write. -/
lemma writeOne_wrote {item : Job × ByteArray} {file : AssembledFile} {w w' : World σ}
    (h : (writeOne settings bus item).exec w = (.ok file, w')) :
    Wrote item.1 file ∧ w'.journal.records = w.journal.records ++ [file.record] := by
  obtain ⟨path, w₁, hpath, h⟩ := Work.exec_bind_ok.1 h
  rw [Work.exec_liftM, Prod.mk.injEq] at hpath
  obtain ⟨_, rfl⟩ := hpath
  obtain ⟨written, w₂, hwrite, h⟩ := Work.exec_bind_ok.1 h
  have hrecords := (Work.Unrecorded.within _ (Output.write_unrecorded _ _ _ _)).records hwrite
  rw [Work.exec_within, Prod.mk.injEq, Result.mapError_eq_ok] at hwrite
  obtain ⟨_, w₃, hrecord, h⟩ := Work.exec_bind_ok.1 h
  cases hrecord
  cases h
  refine ⟨⟨rfl, rfl, Output.write_outcome (Prod.ext hwrite.1 rfl), rfl⟩, ?_⟩
  rw [Work.records_push_file, hrecords]
  rfl

/-- So are all that are taken, in their order. -/
lemma writeAll_wrote {items : List (Job × ByteArray)} {files : List AssembledFile}
    {w w' : World σ} (h : (writeAll settings bus items).exec w = (.ok files, w')) :
    List.Forall₂ (fun item file => Wrote item.1 file) items files ∧
      w'.journal.records = w.journal.records ++ files.map AssembledFile.record := by
  induction items generalizing w files with
  | nil =>
    cases h
    exact ⟨.nil, by simp⟩
  | cons item items ih =>
    obtain ⟨file, others, w₁, hone, hothers, rfl⟩ := Work.exec_mapM_cons_ok.1 h
    obtain ⟨hfile, hrecord⟩ := writeOne_wrote hone
    obtain ⟨hall, hrecords⟩ := ih hothers
    exact ⟨.cons hfile hall, by rw [hrecords, hrecord]; simp⟩

/-- Jobs with their contents are the jobs. -/
lemma forall₂_of_zip {taken : List Job} {contents : List ByteArray} {files : List AssembledFile}
    (hlength : taken.length = contents.length)
    (h : List.Forall₂ (fun item file => Wrote item.1 file) (taken.zip contents) files) :
    List.Forall₂ Wrote taken files := by
  rw [← List.map_fst_zip hlength.le, List.forall₂_map_left_iff]
  exact h

/-! ## One entry for each candidate -/

/-- What a report tells of a decision: the refusal, or what the writing came to. -/
inductive Settles : AssembledFile ⊕ Job → AssembledFile → Prop
  | refused {file} : Settles (.inl file) file
  | taken {job file} : Wrote job file → Settles (.inr job) file

/-- Refusals and written files are put back into the order of the decisions. -/
lemma exists_entries {sides : List (AssembledFile ⊕ Job)} {files : List AssembledFile}
    (hrefused : ∀ file, .inl file ∈ sides → file.outcome.isWrite = false)
    (h : List.Forall₂ Wrote (sides.filterMap Sum.getRight?) files) :
    ∃ entries, List.Forall₂ Settles sides entries ∧
      entries.filter (fun f => !f.outcome.isWrite) = sides.filterMap Sum.getLeft? ∧
      entries.filter (fun f => f.outcome.isWrite) = files := by
  -- on the sides: a refused one is its own entry, and a taken one is the next file
  induction sides generalizing files with
  | nil =>
    cases h
    exact ⟨[], .nil, rfl, rfl⟩
  | cons side sides ih =>
    have hothers : ∀ file, .inl file ∈ sides → file.outcome.isWrite = false :=
      fun file hfile => hrefused file (List.mem_cons_of_mem _ hfile)
    cases side with
    | inl file =>
      obtain ⟨entries, hall, hleft, hright⟩ := ih hothers h
      have hout := hrefused file List.mem_cons_self
      refine ⟨file :: entries, .cons .refused hall, ?_, ?_⟩
      · simp [hout, hleft]
      · simp [hout, hright]
    | inr job =>
      rw [List.filterMap_cons_some (by rfl : Sum.getRight? (Sum.inr job) = some job)] at h
      cases h with
      | @cons _ file _ rest hfile hrest =>
        obtain ⟨entries, hall, hleft, hright⟩ := ih hothers hrest
        refine ⟨file :: entries, .cons (.taken hfile) hall, ?_, ?_⟩
        · rw [List.filterMap_cons_none rfl, ← hleft]
          simp [hfile.outcome]
        · simp [hfile.outcome, hright]

/-- A refusal is no write. -/
lemma refusal?_not_write {final : Candidate} {outcome : FileOutcome}
    (h : refusal? environment final = some outcome) : outcome.isWrite = false := by
  rw [refusal?] at h
  split at h
  · cases h
    rfl
  · split at h
    · cases h
      rfl
    · cases h

/-- So what is refused has no outcome of a write. -/
lemma Decides.not_write {s s' : σ} {jobs : List Job} {sides : List (AssembledFile ⊕ Job)}
    (h : Decides environment bus s jobs sides s') :
    ∀ file, .inl file ∈ sides → file.outcome.isWrite = false := by
  induction h with
  | nil =>
    intro file hfile
    cases hfile
  | @cons _ _ _ job _ final _ _ _ ih =>
    intro file hfile
    rcases List.mem_cons.1 hfile with hfile | hfile
    · rw [sideOf] at hfile
      split at hfile
      · cases hfile
      next hrefusal =>
        cases hfile
        exact refusal?_not_write hrefusal
    · exact ih file hfile

/-- A file that settles a decision tells what was decided. -/
lemma tells_of_settles (hbus : bus.LeavesOrigin) {job : Job} {final : Candidate} {s s₁ : σ}
    {file : AssembledFile}
    (hheard : (bus.emitCandidate job.candidate).run.run s = (.ok final, s₁))
    (h : Settles (sideOf environment job final) file) : Tells environment bus job s final file := by
  have horigin := hbus.emitCandidate hheard
  -- a reason decides alone, and only without one it matters whether the path is left out
  have hskipped : ∀ r, final.skipReason = some r →
      file.outcome = .skipped ∧ file.reason = some r := by
    intro r hr
    simp only [sideOf, refusal?, hr, Option.isSome_some, ↓reduceIte] at h
    cases h
    exact ⟨rfl, rfl⟩
  have hexcluded : final.skipReason = none → environment.isExcluded final.path = true →
      file.outcome = .excluded ∧ file.reason = none := by
    intro hr hout
    simp only [sideOf, refusal?, hr, hout, Option.isSome_none, Bool.false_eq_true,
      ↓reduceIte] at h
    cases h
    exact ⟨rfl, rfl⟩
  have hwrote : final.skipReason = none → environment.isExcluded final.path = false →
      file.outcome.isWrite = true ∧ file.reason = none := by
    intro hr hout
    simp only [sideOf, refusal?, hr, hout, Option.isSome_none, Bool.false_eq_true,
      ↓reduceIte] at h
    cases h with
    | taken hfile => exact ⟨hfile.outcome, hfile.reason⟩
  have hsame : file.path = final.path ∧ file.origin = final.origin := by
    rw [sideOf] at h
    split at h
    · cases h with
      | taken hfile => exact ⟨hfile.path, hfile.origin⟩
    · cases h
      exact ⟨rfl, rfl⟩
  refine ⟨hsame.1, hsame.2.trans horigin, hskipped, hexcluded, hwrote, ?_⟩
  rintro front back c s₂ r rfl hkeeps hfront hr
  obtain ⟨c₁, s₃, hfront', hback⟩ := Bus.emitCandidate_append hheard
  rw [hfront] at hfront'
  cases hfront'
  exact hskipped r (hkeeps.emitCandidate hback hr)

/-- Files that settle all decisions account for all candidates. -/
lemma Decides.accounts (hbus : bus.LeavesOrigin) {s s' : σ} {jobs : List Job}
    {sides : List (AssembledFile ⊕ Job)} {entries : List AssembledFile}
    (h : Decides environment bus s jobs sides s') (hall : List.Forall₂ Settles sides entries) :
    Accounts environment bus s jobs entries s' := by
  induction h generalizing entries with
  | nil =>
    cases hall
    exact .nil
  | cons hheard _ ih =>
    cases hall with
    | cons hfirst hrest => exact .cons hheard (tells_of_settles hbus hheard hfirst) (ih hrest)

/-- Written files stand behind the refused ones, so they are what becomes of their paths. -/
lemma outcomeOf?_of_written {entries : List AssembledFile} {entry : AssembledFile}
    (hentry : entry ∈ entries) (hwrite : entry.outcome.isWrite = true) :
    ∃ outcome,
      Report.outcomeOf? ⟨entries.filter (fun f => !f.outcome.isWrite) ++
        entries.filter (fun f => f.outcome.isWrite)⟩ entry.path = some outcome ∧
      outcome.isWrite = true := by
  have hmem : entry ∈ (entries.filter (fun f => f.outcome.isWrite)).reverse := by
    rw [List.mem_reverse, List.mem_filter]
    exact ⟨hentry, hwrite⟩
  obtain ⟨found, hfound⟩ := Option.isSome_iff_exists.1
    (List.find?_isSome (p := fun f => f.path == entry.path).2 ⟨entry, hmem, beq_self_eq_true _⟩)
  have hkept := List.mem_reverse.1 (List.mem_of_find?_eq_some hfound)
  refine ⟨found.outcome, ?_, (List.mem_filter.1 hkept).2⟩
  rw [Report.outcomeOf?, List.reverse_append, List.find?_append, hfound]
  rfl

/-- The report of an assembly has exactly one entry for each candidate: what the listeners skipped
and what is left out first, then what was written, both in the order of the candidates.  The log has
got the same records in the same order, and a path that was written to counts as written. -/
theorem run_accounts {report : Report} {w w' : World σ} (hbus : bus.LeavesOrigin)
    (h : (run environment settings bus).exec w = (.ok report, w')) :
    ∃ jobs entries host,
      candidates w.tree environment settings.frame = .ok jobs ∧
      Accounts environment bus w.journal.host jobs entries host ∧
      report.files = entries.filter (fun f => !f.outcome.isWrite) ++
        entries.filter (fun f => f.outcome.isWrite) ∧
      w'.journal.records = w.journal.records ++ report.files.map AssembledFile.record ∧
      ∀ entry ∈ entries, entry.outcome.isWrite = true →
        ∃ outcome, report.outcomeOf? entry.path = some outcome ∧ outcome.isWrite = true := by
  rw [run_eq] at h
  obtain ⟨⟨refused, taken⟩, w₁, hchosen, h⟩ := Work.exec_bind_ok.1 h
  obtain ⟨texts, w₂, htexts, h⟩ := Work.exec_bind_ok.1 h
  obtain ⟨files, w₃, hfiles, h⟩ := Work.exec_bind_ok.1 h
  cases h
  obtain ⟨jobs, sides, hjobs, hdecides, rfl, rfl, hrefusals⟩ := choose_ok hchosen
  obtain ⟨htexts, _, hjournal⟩ := renderAll_ok htexts
  obtain ⟨hwrote, hwritten⟩ := writeAll_wrote hfiles
  have hlength := (Result.mapM_eq_ok.1 htexts).length_eq
  obtain ⟨entries, hall, hleft, hright⟩ :=
    exists_entries hdecides.not_write (forall₂_of_zip hlength hwrote)
  refine ⟨jobs, entries, _, hjobs, hdecides.accounts hbus hall, ?_, ?_, ?_⟩
  · rw [hleft, hright]
  · rw [hwritten, hjournal, hrefusals, List.map_append, List.append_assoc]
  · intro entry hentry hwrite
    rw [← hleft, ← hright]
    exact outcomeOf?_of_written hentry hwrite

/-- A frame with two notes and a sketch. -/
def sketchTree : FileTree :=
  ⟨[(["frame"], .directory), (["frame", "a.txt"], .file "a\n".toUTF8 FileTree.newFileMode),
    (["frame", "b.txt"], .file "b\n".toUTF8 FileTree.newFileMode),
    (["frame", "sketch.txt"], .file "sketch\n".toUTF8 FileTree.newFileMode)], []⟩

/-- A listener that skips sketches and moves a note to where a sketch would go. -/
def sketchListener : Listener Unit where
  onCandidate c :=
    if c.path = "sketch.txt" then pure (c.skip "a sketch")
    else if c.path = "b.txt" then pure { c with path := "sketch.txt" }
    else pure c

/-- A listener that skips all but one path. -/
def narrowListener : Listener Unit where
  onCandidate c := if c.path = "sketch.txt" then pure c else pure (c.skip "not wanted")

/-- The settings of the assembly. -/
def sketchSettings : AssemblySettings := ⟨some "frame", "out", ⟨.off, false⟩, true⟩

/-- Every candidate has one entry, first the refused ones and then those that were written. -/
theorem sketch_is_accounted :
    ∃ report w' a b sketch,
      (run ⟨.empty, .empty, .empty⟩ sketchSettings [sketchListener, narrowListener]).exec
        (⟨⟨#[], ()⟩, sketchTree, .calm⟩ : World Unit) = (.ok report, w') ∧
      report.files = [a, b, sketch].filter (fun f => !f.outcome.isWrite) ++
        [a, b, sketch].filter (fun f => f.outcome.isWrite) ∧
      w'.journal.records = report.files.map AssembledFile.record ∧
      (sketch.outcome = .skipped ∧ sketch.reason = some "a sketch") ∧
      ∃ outcome, report.outcomeOf? "sketch.txt" = some outcome ∧ outcome.isWrite = true := by
  have hbus : Bus.LeavesOrigin [sketchListener, narrowListener] := by
    intro l hl c c' s s' hrun
    simp only [List.mem_cons, List.not_mem_nil, or_false] at hl
    rcases hl with rfl | rfl
    all_goals
      simp only [sketchListener, narrowListener] at hrun
      split at hrun
    · cases hrun
      rfl
    · split at hrun
      all_goals
        cases hrun
        rfl
    all_goals
      cases hrun
      rfl
  have hkeeps : Bus.KeepsReasons [narrowListener] := by
    intro l hl c c' s s' hrun r hr
    obtain rfl := List.mem_singleton.1 hl
    simp only [narrowListener] at hrun
    split at hrun
    all_goals cases hrun
    · exact hr
    · exact Candidate.skip_reason hr
  have hrun : ((run ⟨.empty, .empty, .empty⟩ sketchSettings [sketchListener, narrowListener]).exec
      (⟨⟨#[], ()⟩, sketchTree, .calm⟩ : World Unit)).1.toOption.isSome = true := by decide +kernel
  rcases he : (run ⟨.empty, .empty, .empty⟩ sketchSettings [sketchListener, narrowListener]).exec
    (⟨⟨#[], ()⟩, sketchTree, .calm⟩ : World Unit) with ⟨e | report, w'⟩
  · rw [he] at hrun
    cases hrun
  obtain ⟨jobs, entries, host, hjobs, haccounts, hfiles, hrecords, hwritten⟩ := run_accounts hbus he
  have hgot : (candidates sketchTree ⟨.empty, .empty, .empty⟩ sketchSettings.frame).toOption =
      some [frameJob "frame" "a.txt", frameJob "frame" "b.txt", frameJob "frame" "sketch.txt"] := by
    decide +kernel
  rw [hjobs] at hgot
  cases hgot
  obtain _ | @⟨_, _, _, _, _, _, a, _, _, _, hrest⟩ := haccounts
  obtain _ | @⟨_, _, _, _, _, heardB, b, _, hheardB, htoldB, hrest⟩ := hrest
  obtain _ | @⟨_, _, _, _, _, _, sketch, _, _, htold, hrest⟩ := hrest
  cases hrest
  refine ⟨report, w', a, b, sketch, rfl, hfiles, hrecords, ?_, ?_⟩
  · exact htold.first [sketchListener] [narrowListener] _ () "a sketch" rfl hkeeps rfl rfl
  · obtain rfl : heardB = ⟨"sketch.txt", .frame, none⟩ := by
      cases hheardB
      rfl
    have hb := hwritten b (by simp) (htoldB.wrote rfl rfl).1
    rwa [htoldB.path] at hb

end Assembly

end ConfigPack
