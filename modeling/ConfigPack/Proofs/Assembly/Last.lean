import ConfigPack.Proofs.Assembly.Exclude
import ConfigPack.Proofs.Assembly.Fold

/-!
# The last candidate for a place

Candidates are written in their order, so what stands at a place in the end was put there by the
last candidate whose path names it (`run_last`).
-/

namespace ConfigPack.Assembly

variable {σ : Type} {t : FileTree} {environment : Environment} {settings : AssemblySettings}

/-- What a write leaves at its entry stays when no later path names that entry. -/
lemma writeAll_last {front back : List (Job × ByteArray)} {item : Job × ByteArray}
    {files : List AssembledFile} {w w' : World σ} (ht : t.Evolves w.tree)
    (hreal : settings.write.dryRun = false)
    (hback : ∀ i ∈ back, ¬ SameEntry t settings.output i.1.candidate.path item.1.candidate.path)
    (h : (writeAll settings [] (front ++ item :: back)).exec w = (.ok files, w')) :
    ∃ place before content, t.EntryOf (Path.join settings.output item.1.candidate.path) place ∧
      combined settings.write.mode (.ofPath item.1.candidate.path) before item.2 = some content ∧
      w'.tree.content? place = some content := by
  rw [writeAll, List.mapM_append] at h
  obtain ⟨_, w₁, hfront, h⟩ := Work.exec_bind_ok.1 h
  obtain ⟨_, w₂, hrest, h⟩ := Work.exec_bind_ok.1 h
  cases h
  obtain ⟨file, _, w₃, hone, hothers, _⟩ := Work.exec_mapM_cons_ok.1 hrest
  have ht₁ := (writeAll_keeps ht hfront).1
  obtain ⟨place, content, before, hputs, hcontent, _⟩ := writeOne_ok ht₁ hreal hone
  have hkept := (writeAll_keeps (ht₁.trans hputs.evolves) hothers).2 place fun i hi he =>
    hback i hi ⟨place, he, hputs.entry⟩
  exact ⟨place, before, content, hputs.entry, hcontent, hkept.content?.trans hputs.here⟩

/-- When an assembly with no listeners succeeds, it has candidates: files of the frame, and behind
them the built files. -/
lemma candidates_of_run {report : Report} {w w' : World σ}
    (h : (run environment settings []).exec w = (.ok report, w')) :
    ∃ framed, candidates w.tree environment settings.frame =
      .ok (framed ++ builderJobs environment) := by
  rw [run_eq] at h
  obtain ⟨_, _, hchosen, _⟩ := Work.exec_bind_ok.1 h
  obtain ⟨jobs, hjobs, _⟩ := choose_nil_ok hchosen
  obtain ⟨files, _, rfl⟩ := candidates_ok hjobs
  exact ⟨_, hjobs⟩

/-- When an assembly with no listeners succeeds, a candidate that is not left out is what stands at
its place in the end, when no candidate behind it that is taken names that place. -/
lemma run_last {report : Report} {w w' : World σ} {front back : List Job} {job : Job}
    (hreal : settings.write.dryRun = false)
    (h : (run environment settings []).exec w = (.ok report, w'))
    (hjobs : candidates w.tree environment settings.frame = .ok (front ++ job :: back))
    (hout : environment.isExcluded job.candidate.path = false)
    (hback : ∀ j ∈ back, environment.isExcluded j.candidate.path = false →
      ¬ SameEntry w.tree settings.output j.candidate.path job.candidate.path) :
    ∃ place data before content,
      w.tree.EntryOf (Path.join settings.output job.candidate.path) place ∧
      render w.tree environment.tokens job = .ok data ∧
      combined settings.write.mode (.ofPath job.candidate.path) before data = some content ∧
      w'.tree.content? place = some content := by
  rw [run_eq] at h
  obtain ⟨⟨refused, taken⟩, w₁, hchosen, h⟩ := Work.exec_bind_ok.1 h
  obtain ⟨texts, w₂, htexts, h⟩ := Work.exec_bind_ok.1 h
  obtain ⟨files, w₃, hfiles, h⟩ := Work.exec_bind_ok.1 h
  cases h
  have htree : w₁.tree = w.tree := (choose_still _ _ _).tree hchosen
  obtain ⟨jobs, hcandidates, rfl⟩ := choose_nil_ok hchosen
  rw [hjobs] at hcandidates
  cases hcandidates
  obtain ⟨htexts, htree₂, _⟩ := renderAll_ok htexts
  rw [htree] at htexts htree₂
  -- the job stands among those that are taken, with its content among the rendered ones
  rw [List.filter_append, List.filter_cons_of_pos (by simp [hout])] at htexts hfiles
  rw [List.mapM_append] at htexts
  obtain ⟨before, hbefore, htexts⟩ := Result.bind_eq_ok.1 htexts
  obtain ⟨after, hafter, htexts⟩ := Result.bind_eq_ok.1 htexts
  cases htexts
  rw [List.mapM_cons] at hafter
  obtain ⟨data, hdata, hafter⟩ := Result.bind_eq_ok.1 hafter
  obtain ⟨rest, hrest, hafter⟩ := Result.bind_eq_ok.1 hafter
  cases hafter
  have hlength := (Result.mapM_eq_ok.1 hbefore).length_eq
  rw [List.zip_append hlength, List.zip_cons_cons] at hfiles
  obtain ⟨place, held, content, hentry, hcontent, hhere⟩ :=
    writeAll_last (t := w.tree) (htree₂ ▸ .refl _) hreal (fun i hi => by
      obtain ⟨hmem, htaken⟩ := List.mem_filter.1 (List.of_mem_zip hi).1
      exact hback i.1 hmem (by simpa using htaken)) hfiles
  exact ⟨place, data, held, content, hentry, hdata, hcontent, hhere⟩

end ConfigPack.Assembly
