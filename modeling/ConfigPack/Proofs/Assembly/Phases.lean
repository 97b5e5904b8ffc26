import ConfigPack.Assembly.Run
import ConfigPack.Proofs.Assembly.Listing
import ConfigPack.Proofs.Work

/-!
# The phases of an assembly

An assembly first chooses the candidates that it takes (`choose`), then renders all of them in the
tree it started from, and only then writes the first one.  Choosing and rendering leave the files
alone, so a failure before the first write changes nothing, and what is written does not depend on
what the same assembly wrote before.  Which candidates can be rendered does not depend on chance;
only which of several errors is reported does, and only when they are rendered side by side
(`renderAll_cases`).
-/

namespace ConfigPack.Assembly

variable {σ : Type} {environment : Environment} {settings : AssemblySettings}

/-- The jobs of the files of a frame as they stand in a tree. -/
def frameJobsIn (tree : FileTree) (frame : Option String) : Except AssemblyError (List Job) :=
  match frame with
  | none => .ok []
  | some frame =>
    if tree.isDirectory frame then
      (listFiles tree frame).map fun files => files.map (frameJob frame)
    else .ok []

/-- The candidates of an assembly with their sources: the files of the frame in the order of their
paths, then the built files in the order of their keys. -/
def candidates (tree : FileTree) (environment : Environment) (frame : Option String) :
    Except AssemblyError (List Job) := do
  return (← frameJobsIn tree frame) ++ builderJobs environment

/-- The first phase: all candidates, and which of them are taken. -/
def choose (environment : Environment) (frame : Option String) (bus : Bus σ) :
    Work σ AssemblyError (List AssembledFile × List Job) := do
  let jobs := (← frameJobs frame) ++ builderJobs environment
  Work.log .debug s!"{jobs.length} candidate files"
  select environment bus jobs

/-- The jobs that an assembly takes in a world; none when it fails before it has chosen. -/
def chosen (environment : Environment) (frame : Option String) (bus : Bus σ) (w : World σ) :
    List Job :=
  match ((choose environment frame bus).exec w).1 with
  | .ok (_, taken) => taken
  | .error _ => []

/-- The last phase: the taken candidates are written one after the other. -/
def writeAll (settings : AssemblySettings) (bus : Bus σ) (items : List (Job × ByteArray)) :
    Work σ AssemblyError (List AssembledFile) :=
  items.mapM (writeOne settings bus)

/-- An assembly is its three phases. -/
lemma run_eq (environment : Environment) (settings : AssemblySettings) (bus : Bus σ) :
    run environment settings bus = (do
      let chosen ← choose environment settings.frame bus
      let contents ← renderAll settings.parallel environment.tokens chosen.2
      let written ← writeAll settings bus (chosen.2.zip contents)
      return ⟨chosen.1 ++ written⟩) := by
  simp only [run, choose, writeAll, bind_assoc]

/-- Finding the jobs of a frame only logs. -/
lemma frameJobs_exec (frame : Option String) (w : World σ) :
    ∃ w', (frameJobs frame).exec w = (frameJobsIn w.tree frame, w') ∧ w'.tree = w.tree ∧
      w'.journal.host = w.journal.host ∧ w'.chances = w.chances := by
  cases frame with
  | none => exact ⟨w, rfl, rfl, rfl, rfl⟩
  | some frame =>
    simp only [frameJobs, frameJobsIn, Work.exec_bind, Work.exec_get]
    split
    · simp only [Work.exec_bind, Work.exec_look]
      cases listFiles w.tree frame with
      | error e => exact ⟨w, rfl, rfl, rfl, rfl⟩
      | ok files => exact ⟨w, rfl, rfl, rfl, rfl⟩
    · exact ⟨_, rfl, rfl, rfl, rfl⟩

/-- To list the frame changes no file. -/
lemma frameJobs_still (frame : Option String) :
    Work.Still (frameJobs frame : Work σ AssemblyError (List Job)) := by
  intro w
  obtain ⟨w', hexec, htree, _⟩ := frameJobs_exec frame w
  rw [hexec]
  exact htree

/-- Nor does the decision on a candidate. -/
lemma selectOne_still (environment : Environment) (bus : Bus σ) (job : Job) :
    Work.Still (selectOne environment bus job) := by
  refine .bind (.withHost _ _) fun candidate => ?_
  split
  · exact .pure _
  · exact .bind (.log _ _) fun _ => .bind (.record _ _ _) fun _ => .pure _

/-- Nor do all decisions. -/
lemma select_still (environment : Environment) (bus : Bus σ) (jobs : List Job) :
    Work.Still (select environment bus jobs) :=
  .bind (.mapM fun job _ => selectOne_still environment bus job) fun _ => .pure _

/-- So nothing has been written when the candidates are chosen. -/
lemma choose_still (environment : Environment) (frame : Option String) (bus : Bus σ) :
    Work.Still (choose environment frame bus) :=
  .bind (frameJobs_still frame) fun _ => .bind (.log _ _) fun _ => select_still _ _ _

/-! ## Choosing with no listeners -/

/-- The candidates are the files of the frame and behind them those that are built. -/
lemma candidates_of_frame {tree : FileTree} {frame : Option String} {framed : List Job}
    (h : frameJobsIn tree frame = .ok framed) :
    candidates tree environment frame = .ok (framed ++ builderJobs environment) := by
  rw [candidates, h]
  rfl

/-- The candidates are the files of the frame in order, then the built files. -/
lemma candidates_ok {tree : FileTree} {frame : Option String} {jobs : List Job}
    (h : candidates tree environment frame = .ok jobs) :
    ∃ files : List String, files.Pairwise (· ≤ ·) ∧
      jobs = files.map (frameJob (frame.getD "")) ++ builderJobs environment := by
  rw [candidates] at h
  rcases hf : frameJobsIn tree frame with e | framed
  · rw [hf] at h
    cases h
  rw [hf] at h
  cases h
  cases frame with
  | none =>
    cases hf
    exact ⟨[], .nil, rfl⟩
  | some frame =>
    simp only [frameJobsIn] at hf
    split at hf
    · rcases hl : listFiles tree frame with e | files
      · rw [hl] at hf
        cases hf
      · rw [hl] at hf
        cases hf
        exact ⟨files, listFiles_sorted hl, rfl⟩
    · cases hf
      exact ⟨[], .nil, rfl⟩

/-- They have no reason to be skipped. -/
lemma skipReason_of_candidates {tree : FileTree} {frame : Option String} {jobs : List Job}
    (h : candidates tree environment frame = .ok jobs) :
    ∀ job ∈ jobs, job.candidate.skipReason = none := by
  obtain ⟨files, _, rfl⟩ := candidates_ok h
  intro job hjob
  rcases List.mem_append.1 hjob with hm | hm
  · obtain ⟨path, _, rfl⟩ := List.mem_map.1 hm
    rfl
  · obtain ⟨e, _, rfl⟩ := List.mem_map.1 hm
    rfl

/-- What is decided about a job when nobody listens: it is taken unless its path is left out. -/
def decision (environment : Environment) (job : Job) : AssembledFile ⊕ Job :=
  if environment.isExcluded job.candidate.path then
    .inl ⟨job.candidate.path, job.candidate.origin, .excluded, none⟩
  else .inr job

/-- Those that are taken are the ones that are not excluded. -/
lemma filterMap_decision {jobs : List Job} :
    (jobs.map (decision environment)).filterMap Sum.getRight? =
      jobs.filter fun job => !environment.isExcluded job.candidate.path := by
  induction jobs with
  | nil => rfl
  | cons job jobs ih =>
    rw [List.map_cons, List.filterMap_cons, List.filter_cons, ih, decision]
    cases environment.isExcluded job.candidate.path <;> rfl

/-- With no listeners a candidate is decided by its path. -/
lemma selectOne_nil {job : Job} (hskip : job.candidate.skipReason = none) (w : World σ) :
    ∃ w', (selectOne environment [] job).exec w = (.ok (decision environment job), w') ∧
      w'.tree = w.tree ∧ w'.journal.host = w.journal.host ∧ w'.chances = w.chances := by
  have hheard : (Work.withHost AssemblyError.hook (Bus.emitCandidate [] job.candidate)).exec w =
      (.ok job.candidate, w) := rfl
  rw [selectOne, Work.exec_bind, hheard, decision]
  cases hout : environment.isExcluded job.candidate.path with
  | false =>
    have htaken : refusal? environment job.candidate = none := by simp [refusal?, hskip, hout]
    simp only [htaken]
    exact ⟨w, rfl, rfl, rfl, rfl⟩
  | true =>
    have hrefused : refusal? environment job.candidate = some .excluded := by
      simp [refusal?, hskip, hout]
    simp only [hrefused, hskip]
    exact ⟨_, rfl, rfl, rfl, rfl⟩

/-- So are all candidates. -/
lemma decided_nil :
    ∀ {jobs : List Job}, (∀ job ∈ jobs, job.candidate.skipReason = none) → ∀ w : World σ,
      ∃ w', (jobs.mapM (selectOne environment [])).exec w =
          (.ok (jobs.map (decision environment)), w') ∧
        w'.tree = w.tree ∧ w'.journal.host = w.journal.host ∧ w'.chances = w.chances
  | [], _, w => ⟨w, rfl, rfl, rfl, rfl⟩
  | job :: jobs, hskip, w => by
    obtain ⟨w₁, hone, htree₁, hhost₁, hchances₁⟩ := selectOne_nil (hskip job List.mem_cons_self) w
    obtain ⟨w₂, hothers, htree₂, hhost₂, hchances₂⟩ :=
      decided_nil (fun j hj => hskip j (List.mem_cons_of_mem _ hj)) w₁
    refine ⟨w₂, ?_, htree₂.trans htree₁, hhost₂.trans hhost₁, hchances₂.trans hchances₁⟩
    exact Work.exec_mapM_cons_ok.2 ⟨_, _, w₁, hone, hothers, rfl⟩

/-- With no listeners it is decided about all candidates. -/
lemma choose_nil {frame : Option String} {jobs : List Job} {w : World σ}
    (hjobs : candidates w.tree environment frame = .ok jobs) :
    ∃ w', (choose environment frame []).exec w =
        (.ok ((jobs.map (decision environment)).filterMap Sum.getLeft?,
          (jobs.map (decision environment)).filterMap Sum.getRight?), w') ∧
      w'.tree = w.tree ∧ w'.journal.host = w.journal.host ∧ w'.chances = w.chances := by
  obtain ⟨w₁, hframed, htree₁, hhost₁, hchances₁⟩ := frameJobs_exec frame w
  have hskip := skipReason_of_candidates hjobs
  rw [candidates] at hjobs
  rcases hf : frameJobsIn w.tree frame with e | framed
  · rw [hf] at hjobs
    cases hjobs
  rw [hf] at hjobs hframed
  cases hjobs
  let w₂ : World σ := { w₁ with journal.log := w₁.journal.log.push (.line .debug
    s!"{(framed ++ builderJobs environment).length} candidate files") }
  obtain ⟨w₃, hdecided, htree₃, hhost₃, hchances₃⟩ := decided_nil hskip w₂
  refine ⟨w₃, ?_, htree₃.trans htree₁, hhost₃.trans hhost₁, hchances₃.trans hchances₁⟩
  refine Work.exec_bind_ok.2 ⟨framed, w₁, hframed, ?_⟩
  refine Work.exec_bind_ok.2 ⟨(), w₂, rfl, ?_⟩
  exact Work.exec_bind_ok.2 ⟨_, w₃, hdecided, rfl⟩

/-! ## What is taken -/

/-- No candidate is taken whose path is left out. -/
lemma not_excluded_of_selectOne {environment : Environment} {bus : Bus σ} {job taken : Job}
    {w w' : World σ} (h : (selectOne environment bus job).exec w = (.ok (.inr taken), w')) :
    environment.isExcluded taken.candidate.path = false := by
  obtain ⟨candidate, w₁, _, h⟩ := Work.exec_bind_ok.1 h
  split at h
  next hr =>
    cases h
    rw [refusal?] at hr
    split at hr
    · cases hr
    · split at hr
      · cases hr
      next he => simpa using he
  next =>
    obtain ⟨_, _, _, h⟩ := Work.exec_bind_ok.1 h
    obtain ⟨_, _, _, h⟩ := Work.exec_bind_ok.1 h
    cases h

/-- No job is taken whose path is left out. -/
lemma not_excluded_of_chosen {environment : Environment} {frame : Option String} {bus : Bus σ}
    {w : World σ} {job : Job} (h : job ∈ chosen environment frame bus w) :
    environment.isExcluded job.candidate.path = false := by
  rw [chosen] at h
  rcases hc : (choose environment frame bus).exec w with ⟨e | ⟨refused, taken⟩, w'⟩
  · rw [hc] at h
    cases h
  rw [hc] at h
  obtain ⟨framed, w₁, _, hc⟩ := Work.exec_bind_ok.1 hc
  obtain ⟨_, w₂, _, hc⟩ := Work.exec_bind_ok.1 hc
  obtain ⟨decided, w₃, hdecided, hc⟩ := Work.exec_bind_ok.1 hc
  cases hc
  obtain ⟨side, hside, hright⟩ := List.mem_filterMap.1 h
  obtain ⟨taken, rfl⟩ : ∃ taken, side = .inr taken := by
    cases side with
    | inl => cases hright
    | inr taken => exact ⟨taken, rfl⟩
  cases hright
  obtain ⟨one, _, before, after, hone⟩ := Work.exec_mapM_mem hdecided hside
  exact not_excluded_of_selectOne hone

/-! ## What is rendered -/

/-- The errors among results are those with which some of them failed. -/
lemma mem_errorsOf {ε α : Type} {results : List (Except ε α)} {e : ε} :
    e ∈ errorsOf results ↔ .error e ∈ results := by
  rw [errorsOf, List.mem_filterMap]
  constructor
  · rintro ⟨_ | a, hmem, h⟩
    · cases h
      exact hmem
    · cases h
  · exact fun h => ⟨_, h, rfl⟩

/-- There are no errors when each result is a value. -/
lemma errorsOf_eq_nil {ε α : Type} {results : List (Except ε α)} :
    errorsOf results = [] ↔ results = (results.filterMap Except.toOption).map .ok := by
  induction results with
  | nil => exact ⟨fun _ => rfl, fun _ => rfl⟩
  | cons result results ih =>
    cases result with
    | error e =>
      refine ⟨fun h => by simp [errorsOf] at h, fun h => ?_⟩
      have hmem : (.error e : Except ε α) ∈ _ := h ▸ List.mem_cons_self
      obtain ⟨_, _, h⟩ := List.mem_map.1 hmem
      cases h
    | ok a =>
      have hsame : errorsOf (.ok a :: results) = errorsOf results := rfl
      rw [hsame, ih]
      exact ⟨fun h => congrArg (List.cons (Except.ok a)) h, fun h => (List.cons.inj h).2⟩

/-- Results are gathered when all of them are values. -/
lemma gather_eq_ok {ε α : Type} {drawn : Nat} {results : List (Except ε α)} {values : List α} :
    gather drawn results = .ok values ↔ results = values.map .ok := by
  rw [gather]
  split
  next hnil =>
    rw [errorsOf_eq_nil] at hnil
    constructor
    · intro h
      cases h
      exact hnil
    · rintro rfl
      rw [List.filterMap_map]
      exact congrArg Except.ok (List.filterMap_some ..)
  next first others hsome =>
    refine ⟨fun h => (nomatch h), ?_⟩
    rintro rfl
    have hmem : .error first ∈ values.map (Except.ok (ε := ε)) :=
      mem_errorsOf.1 (hsome ▸ List.mem_cons_self)
    obtain ⟨_, _, h⟩ := List.mem_map.1 hmem
    cases h

/-- When some are not, one of their errors is reported. -/
lemma mem_of_gather_error {ε α : Type} {drawn : Nat} {results : List (Except ε α)} {e : ε}
    (h : gather drawn results = .error e) : e ∈ errorsOf results := by
  rw [gather] at h
  split at h
  · cases h
  next first others hsome =>
    cases h
    have hlt : drawn % (others.length + 1) < (first :: others).length :=
      Nat.mod_lt _ (Nat.succ_pos _)
    rw [hsome, List.getD_eq_getElem?_getD, List.getElem?_eq_getElem hlt, Option.getD_some]
    exact List.getElem_mem hlt

/-- Without chance the results are those of a loop, which stops at the first error. -/
lemma gather_zero {ε α β : Type} (f : α → Except ε β) (items : List α) :
    gather 0 (items.map f) = items.mapM f := by
  induction items with
  | nil => rfl
  | cons item items ih =>
    rw [List.mapM_cons, ← ih, List.map_cons]
    cases f item with
    | error e =>
      rw [gather]
      simp only [errorsOf, List.filterMap_cons, Nat.zero_mod]
      rfl
    | ok b =>
      rw [gather, gather]
      simp only [errorsOf, List.filterMap_cons]
      split <;> rfl

/-- The errors with which jobs cannot be rendered, in their order. -/
def faults (tree : FileTree) (tokens : Dict String) (jobs : List Job) : List AssemblyError :=
  errorsOf (jobs.map (render tree tokens))

/-- One after the other, jobs are rendered until the first that fails. -/
lemma renderAll_sequential (tokens : Dict String) (jobs : List Job) (w : World σ) :
    (renderAll false tokens jobs).exec w = (jobs.mapM (render w.tree tokens), w) := by
  simp only [renderAll, Bool.false_eq_true, ↓reduceIte, pure_bind, Work.exec_look, gather_zero]
  cases jobs.mapM (render w.tree tokens) <;> rfl

/-- Side by side all jobs are rendered, and chance says which of their errors is reported. -/
lemma renderAll_parallel (tokens : Dict String) (jobs : List Job) (w : World σ) :
    (renderAll true tokens jobs).exec w =
      (gather (w.chances.reports 0) (jobs.map (render w.tree tokens)),
        { w with chances := w.chances.afterReport }) := by
  simp only [renderAll, ↓reduceIte, Work.exec_bind, Work.exec_drawReport, Work.exec_look]
  cases gather (w.chances.reports 0) (jobs.map (render w.tree tokens)) <;> rfl

/-- All jobs are rendered, or one of their errors is reported; without chance it is the first. -/
lemma renderAll_cases (parallel : Bool) (tokens : Dict String) (jobs : List Job) (w : World σ) :
    ∃ drawn w', (parallel = false → drawn = 0) ∧
      (renderAll parallel tokens jobs).exec w =
        (gather drawn (jobs.map (render w.tree tokens)), w') ∧
      w'.tree = w.tree ∧ w'.journal = w.journal ∧ w'.chances.writes = w.chances.writes := by
  cases parallel with
  | false =>
    refine ⟨0, w, fun _ => rfl, ?_, rfl, rfl, rfl⟩
    rw [renderAll_sequential, gather_zero]
  | true => exact ⟨_, _, (nomatch ·), renderAll_parallel tokens jobs w, rfl, rfl, rfl⟩

/-- Rendering leaves the files alone. -/
lemma renderAll_still (parallel : Bool) (tokens : Dict String) (jobs : List Job) :
    Work.Still (renderAll parallel tokens jobs : Work σ AssemblyError (List ByteArray)) := by
  intro w
  obtain ⟨_, w', _, hexec, htree, _⟩ := renderAll_cases parallel tokens jobs w
  rw [hexec]
  exact htree

/-- When rendering succeeds, each job was rendered. -/
lemma renderAll_ok {parallel : Bool} {tokens : Dict String} {jobs : List Job}
    {texts : List ByteArray} {w w' : World σ}
    (h : (renderAll parallel tokens jobs).exec w = (.ok texts, w')) :
    jobs.mapM (render w.tree tokens) = .ok texts ∧ w'.tree = w.tree ∧ w'.journal = w.journal := by
  obtain ⟨drawn, w₁, _, hexec, htree, hjournal, _⟩ := renderAll_cases parallel tokens jobs w
  rw [h] at hexec
  obtain ⟨hgather, rfl⟩ := Prod.mk.inj hexec
  refine ⟨?_, htree, hjournal⟩
  have hvalues := gather_eq_ok.1 hgather.symm
  rw [Result.mapM_eq_ok, ← List.forall₂_map_left_iff (f := render w.tree tokens)
    (R := fun result text => result = .ok text), hvalues, List.forall₂_map_left_iff,
    List.forall₂_same]
  exact fun _ _ => rfl

/-- Different errors of which two runs may report either one: several jobs cannot be rendered, and
they are rendered side by side. -/
structure Rivals (parallel : Bool) (faults : List AssemblyError) (blamed other : AssemblyError) :
    Prop where
  parallel : parallel = true
  ne : blamed ≠ other
  blamed : blamed ∈ faults
  other : other ∈ faults

/-- Jobs with the same contents are rendered alike in two worlds; when they cannot be rendered,
chance may choose another error in each. -/
lemma renderAll_alike (parallel : Bool) {tokens : Dict String} {jobs jobs' : List Job}
    {w w' : World σ}
    (h : jobs'.map (render w'.tree tokens) = jobs.map (render w.tree tokens)) :
    ∃ result result' w₁ w₁',
      (renderAll parallel tokens jobs).exec w = (result, w₁) ∧
      (renderAll parallel tokens jobs').exec w' = (result', w₁') ∧
      (w₁.tree = w.tree ∧ w₁.journal = w.journal ∧ w₁.chances.writes = w.chances.writes) ∧
      (w₁'.tree = w'.tree ∧ w₁'.journal = w'.journal ∧ w₁'.chances.writes = w'.chances.writes) ∧
      (result' = result ∨ ∃ e e', result = .error e ∧ result' = .error e' ∧
        Rivals parallel (faults w.tree tokens jobs) e e') := by
  obtain ⟨drawn, w₁, hdrawn, hexec, hleft⟩ := renderAll_cases parallel tokens jobs w
  obtain ⟨drawn', w₁', hdrawn', hexec', hleft'⟩ := renderAll_cases parallel tokens jobs' w'
  refine ⟨_, _, w₁, w₁', hexec, hexec', hleft, hleft', ?_⟩
  rw [h]
  rcases hgather : gather drawn (jobs.map (render w.tree tokens)) with e | texts
  · rcases hgather' : gather drawn' (jobs.map (render w.tree tokens)) with e' | texts
    · by_cases he : e = e'
      · exact .inl (congrArg Except.error he.symm)
      · refine .inr ⟨e, e', rfl, rfl, ?_, he, mem_of_gather_error hgather,
          mem_of_gather_error hgather'⟩
        by_contra hsequential
        rw [Bool.not_eq_true] at hsequential
        rw [hdrawn hsequential] at hgather
        rw [hdrawn' hsequential, hgather] at hgather'
        exact he (Except.error.inj hgather')
    · rw [gather_eq_ok.2 (gather_eq_ok.1 hgather')] at hgather
      cases hgather
  · exact .inl (gather_eq_ok.2 (gather_eq_ok.1 hgather))

/-- The contents of jobs are theirs. -/
lemma render_of_mem_zip {tree : FileTree} {tokens : Dict String} {taken : List Job}
    {texts : List ByteArray} (h : taken.mapM (render tree tokens) = .ok texts) :
    (∀ item ∈ taken.zip texts, render tree tokens item.1 = .ok item.2) ∧
      ∀ job ∈ taken, ∃ data, (job, data) ∈ taken.zip texts := by
  have hall := Result.mapM_eq_ok.1 h
  refine ⟨fun item hitem => List.forall₂_zip hall hitem, fun job hjob => ?_⟩
  rw [← List.map_fst_zip hall.length_eq.le] at hjob
  obtain ⟨⟨_, data⟩, hitem, rfl⟩ := List.mem_map.1 hjob
  exact ⟨data, hitem⟩

/-- An assembly that has chosen and rendered writes what it has chosen; one that fails before leaves
all files as they are. -/
lemma run_phases {bus : Bus σ} {result : Except AssemblyError Report} {w w' : World σ}
    (h : (run environment settings bus).exec w = (result, w')) :
    (w'.tree = w.tree ∧ ∀ report, result ≠ .ok report) ∨
      ∃ texts written w₁ w₂,
        (chosen environment settings.frame bus w).mapM (render w.tree environment.tokens) =
          .ok texts ∧
        w₁.tree = w.tree ∧ w'.tree = w₂.tree ∧
        (writeAll settings bus ((chosen environment settings.frame bus w).zip texts)).exec w₁ =
          (written, w₂) ∧
        (∀ report, result = .ok report → ∃ files, written = .ok files) ∧
        ∀ e, result = .error e → written = .error e := by
  rw [run_eq] at h
  have hstill := choose_still environment settings.frame bus w
  rcases hc : (choose environment settings.frame bus).exec w with ⟨e | ⟨refused, taken⟩, w₁⟩
  · rw [hc] at hstill
    rw [Work.exec_bind, hc] at h
    cases h
    exact .inl ⟨hstill, fun _ e => by cases e⟩
  -- the candidates are chosen, then rendered, and only then the first file is written
  have hchosen : chosen environment settings.frame bus w = taken := by rw [chosen, hc]
  rw [hc] at hstill
  rw [Work.exec_bind, hc] at h
  rw [hchosen]
  simp only at h hstill
  have hstill₁ := renderAll_still settings.parallel environment.tokens taken w₁
  rcases hr : (renderAll settings.parallel environment.tokens taken).exec w₁ with ⟨e | texts, w₂⟩
  · rw [hr] at hstill₁
    rw [Work.exec_bind, hr] at h
    cases h
    exact .inl ⟨hstill₁.trans hstill, fun _ e => by cases e⟩
  obtain ⟨htexts, htree, _⟩ := renderAll_ok hr
  rw [hstill] at htexts htree
  rw [Work.exec_bind, hr] at h
  simp only [Work.exec_bind] at h
  rcases hw : (writeAll settings bus (taken.zip texts)).exec w₂ with ⟨e | files, w₃⟩
  · rw [hw] at h
    cases h
    refine .inr ⟨texts, _, w₂, _, htexts, htree, rfl, hw, ?_, ?_⟩
    · rintro _ ⟨⟩
    · rintro _ ⟨⟩
      rfl
  · rw [hw] at h
    cases h
    refine .inr ⟨texts, _, w₂, _, htexts, htree, rfl, hw, fun _ _ => ⟨files, rfl⟩, ?_⟩
    rintro _ ⟨⟩

end ConfigPack.Assembly
