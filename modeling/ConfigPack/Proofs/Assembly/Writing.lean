import ConfigPack.Proofs.Assembly.Phases
import ConfigPack.Proofs.Output.Combine

/-!
# Writing candidates

A candidate is written at the entry that its path names below the output directory, whatever was
written before it.  `writeOne_ok` says what one write does to all files, and with no listeners what
the written file then holds.
-/

namespace ConfigPack.Assembly

variable {σ : Type} {t : FileTree}

/-- The destination of a path that is not refused. -/
lemma destination_ok {output path result : String} (h : destination output path = .ok result) :
    path ≠ "" ∧ Path.staysInside path = true ∧ result = Path.join output path := by
  rw [destination] at h
  split at h
  next hs =>
    cases h
    obtain ⟨hne, hs⟩ := Bool.and_eq_true_iff.1 hs
    exact ⟨by simpa using hne, hs, rfl⟩
  next => cases h

/-- A path below a directory ends with the name that it ends with in it. -/
lemma names_of_getLast? {directory path name : String} (hp : Path.isAbsolute path = false)
    (hname : FileTree.IsEntryName name)
    (h : (Path.segments (Path.join directory path)).getLast? = some name) :
    ∃ above, Path.names path = above ++ [name] := by
  obtain ⟨front, hs, _⟩ := Path.segments_join directory hp
  rw [hs, List.getLast?_append_of_ne_nil _ (Path.segments_ne_nil path)] at h
  obtain ⟨above, ha⟩ := List.getLast?_eq_some_iff.1 h
  refine ⟨Path.proper above, ?_⟩
  rw [Path.names, ha, Path.proper_append, Path.proper_cons _ hname.not_trivial]
  rfl

/-- A place below the output directory is that of the names of the path, when no link is there. -/
lemma place_of_entry {output path : String} {place : Place}
    (hfree : ∀ base, t.LeadsTo output base → t.LinkFree base)
    (hin : Path.staysInside path = true)
    (hlast : ∃ above name, Path.names path = above ++ [name] ∧ name ≠ "..")
    (h : t.EntryOf (Path.join output path) place) :
    ∃ base, t.LeadsTo output base ∧ place = base ++ Path.names path := by
  obtain ⟨hrel, hup⟩ := Path.staysInside_iff.1 hin
  obtain ⟨above, name, hpath, _⟩ := hlast
  obtain ⟨above', name', directory, hnames, _, hleads, rfl⟩ := h
  rw [Path.names_join hrel, hpath, ← List.append_assoc] at hnames
  obtain ⟨rfl, hname⟩ := List.append_inj' hnames rfl
  cases hname
  obtain ⟨base, hbase, hbelow⟩ := hleads.split rfl
  rw [FileTree.start, Path.isAbsolute_join hrel] at hbase
  have habove : ".." ∉ above := fun hm => hup (hpath ▸ List.mem_append_left _ hm)
  refine ⟨base, hbase, ?_⟩
  rw [hbelow.of_linkFree (hfree base hbase) List.prefix_rfl habove, hpath, List.append_assoc]

/-- What the writing of one candidate does to the files of a tree that has evolved from another. -/
structure Puts (t : FileTree) (settings : AssemblySettings) (path : String)
    (before after : FileTree) (place : Place) (content : ByteArray) : Prop where
  staysInside : Path.staysInside path = true
  named : ∃ above name, Path.names path = above ++ [name] ∧ name ≠ ".."
  entry : t.EntryOf (Path.join settings.output path) place
  evolves : before.Evolves after
  here : after.content? place = some content
  elsewhere : ∀ q, q ≠ place → before.Keeps after q

/-- With no listeners a candidate is put at its entry.  The file then holds the combination of
something and the content of the candidate; where no link stood it is what was there. -/
lemma writeOne_ok {settings : AssemblySettings} {item : Job × ByteArray} {file : AssembledFile}
    {w w' : World σ} (ht : t.Evolves w.tree) (hreal : settings.write.dryRun = false)
    (h : (writeOne settings [] item).exec w = (.ok file, w')) :
    ∃ place content before, Puts t settings item.1.candidate.path w.tree w'.tree place content ∧
      combined settings.write.mode (MergeKind.ofPath item.1.candidate.path) before item.2 =
        some content ∧
      ((∀ target, w.tree.node? place ≠ some (.link target)) →
        before = w.tree.content? place) := by
  obtain ⟨path, w₁, hpath, h⟩ := Work.exec_bind_ok.1 h
  simp only [Work.exec_liftM, Prod.mk.injEq] at hpath
  obtain ⟨hpath, rfl⟩ := hpath
  obtain ⟨hne, hin, rfl⟩ := destination_ok hpath
  obtain ⟨written, w₂, hwrite, h⟩ := Work.exec_bind_ok.1 h
  rw [Work.exec_within, Prod.mk.injEq, Result.mapError_eq_ok] at hwrite
  obtain ⟨grown, directory, name, content, mode, before, hgrows, hentry, hlast, hdir, htree,
    hcombined, hbefore⟩ := Output.write_nil_ok hreal (Prod.ext hwrite.1 hwrite.2)
  obtain ⟨_, w₃, hrecord, h⟩ := Work.exec_bind_ok.1 h
  cases hrecord
  cases h
  have hname := hentry.isEntryName
  obtain ⟨above, habove⟩ := names_of_getLast? (Path.staysInside_iff.1 hin).1 hname hlast
  have hroot : directory ++ [name] ≠ [] := by simp
  -- how files are merged is told by the last name, which is that of the candidate
  have hkind : MergeKind.ofPath (Path.join settings.output item.1.candidate.path) =
      MergeKind.ofPath item.1.candidate.path := by
    have hjoin : Path.names (Path.join settings.output item.1.candidate.path) =
        (Path.names settings.output ++ above) ++ [name] := by
      rw [Path.names_join (Path.staysInside_iff.1 hin).1, habove, List.append_assoc]
    rw [MergeKind.ofPath, MergeKind.ofPath, Path.lowerExtension_eq hjoin habove hname.ne_up]
  refine ⟨directory ++ [name], content, before,
    ⟨hin, ⟨above, name, habove, hname.ne_up⟩, ?_, ?_, ?_, ?_⟩, hkind ▸ hcombined, fun hlink => ?_⟩
  · exact hentry.entryOf (ht.trans hgrows.evolves)
  · change w.tree.Evolves w₂.tree
    rw [htree]
    exact hgrows.evolves.trans (.set_file hroot hdir content mode)
  · change w₂.tree.content? _ = _
    rw [htree, FileTree.content?, FileTree.node?_set hroot, if_pos rfl]
  · intro q hq
    refine (hgrows.keeps q).trans ?_
    change grown.Keeps w₂.tree q
    rw [htree]
    exact FileTree.keeps_set_of_ne hroot _ hq
  · rw [hbefore fun target e => hlink target (hgrows.link_iff.1 e), (hgrows.keeps _).content?]

/-- On trial a candidate leaves the files alone. -/
lemma writeOne_dry_still {settings : AssemblySettings} (bus : Bus σ) (item : Job × ByteArray)
    (hdry : settings.write.dryRun = true) : Work.Still (writeOne settings bus item) := by
  refine .bind (.liftM _) fun path => .bind (.within _ ?_) fun written => ?_
  · exact Output.write_dry_still bus path item.2 hdry
  · exact .bind (.record _ _ _) fun _ => .pure _

/-- Whatever becomes of one write, what no entry of its path is stays. -/
lemma writeOne_keeps {settings : AssemblySettings} {item : Job × ByteArray}
    {result : Except AssemblyError AssembledFile} {w w' : World σ} (ht : t.Evolves w.tree)
    (h : (writeOne settings [] item).exec w = (result, w')) :
    t.Evolves w'.tree ∧
      ∀ q, ¬ t.EntryOf (Path.join settings.output item.1.candidate.path) q →
        w.tree.Keeps w'.tree q := by
  cases hdry : settings.write.dryRun with
  | true =>
    rw [(writeOne_dry_still [] item hdry).tree h]
    exact ⟨ht, fun q _ => .refl _ q⟩
  | false =>
    cases result with
    | ok file =>
      obtain ⟨place, _, _, hputs, _⟩ := writeOne_ok ht hdry h
      refine ⟨ht.trans hputs.evolves, fun q hq => hputs.elsewhere q ?_⟩
      exact fun e => hq (e ▸ hputs.entry)
    | error e =>
      -- a write that fails has made directories at most
      have hgrows : ∃ path, w.tree.Grows (w.tree.OnWay path) w'.tree := by
        rcases Work.exec_bind_error.1 h with h | ⟨path, w₁, hpath, h⟩
        · simp only [Work.exec_liftM, Prod.mk.injEq] at h
          obtain ⟨_, rfl⟩ := h
          exact ⟨"", .refl _⟩
        simp only [Work.exec_liftM, Prod.mk.injEq] at hpath
        obtain ⟨_, rfl⟩ := hpath
        rcases Work.exec_bind_error.1 h with h | ⟨written, w₂, _, h⟩
        · rw [Work.exec_within, Prod.mk.injEq, Result.mapError_eq_error] at h
          obtain ⟨⟨failure, hfailure, _⟩, htree⟩ := h
          exact ⟨path, Output.write_error (by simp) (Prod.ext hfailure htree)⟩
        · rcases Work.exec_bind_error.1 h with h | ⟨_, _, _, h⟩
          · cases h
          · cases h
      obtain ⟨path, hgrows⟩ := hgrows
      exact ⟨ht.trans hgrows.evolves, fun q _ => hgrows.keeps q⟩

/-- Whatever becomes of the writes, what is no entry of their paths stays. -/
lemma writeAll_keeps {settings : AssemblySettings} {items : List (Job × ByteArray)}
    {result : Except AssemblyError (List AssembledFile)} {w w' : World σ} (ht : t.Evolves w.tree)
    (h : (writeAll settings [] items).exec w = (result, w')) :
    t.Evolves w'.tree ∧
      ∀ q, (∀ item ∈ items, ¬ t.EntryOf (Path.join settings.output item.1.candidate.path) q) →
        w.tree.Keeps w'.tree q := by
  induction items generalizing w result with
  | nil =>
    cases h
    exact ⟨ht, fun q _ => .refl _ q⟩
  | cons item items ih =>
    have hsplit : (∃ one, (writeOne settings [] item).exec w = (one, w')) ∨
        ∃ one others w₁, (writeOne settings [] item).exec w = (one, w₁) ∧
          (writeAll settings [] items).exec w₁ = (others, w') := by
      cases result with
      | ok files =>
        obtain ⟨file, others, w₁, hone, hothers, _⟩ := Work.exec_mapM_cons_ok.1 h
        exact .inr ⟨_, _, w₁, hone, hothers⟩
      | error e =>
        rcases Work.exec_mapM_cons_error h with hone | ⟨file, w₁, hone, hothers⟩
        · exact .inl ⟨_, hone⟩
        · exact .inr ⟨_, _, w₁, hone, hothers⟩
    rcases hsplit with ⟨one, hone⟩ | ⟨one, others, w₁, hone, hothers⟩
    · obtain ⟨hevolves, hkeeps⟩ := writeOne_keeps ht hone
      exact ⟨hevolves, fun q hq => hkeeps q (hq item List.mem_cons_self)⟩
    · obtain ⟨hevolves, hkeeps⟩ := writeOne_keeps ht hone
      obtain ⟨hlast, hrest⟩ := ih hevolves hothers
      refine ⟨hlast, fun q hq => (hkeeps q (hq item List.mem_cons_self)).trans ?_⟩
      exact hrest q fun i hi => hq i (List.mem_cons_of_mem _ hi)

/-- When the writes succeed, the entry of each path holds what one of them left there. -/
lemma writeAll_writes {settings : AssemblySettings} {items : List (Job × ByteArray)}
    {files : List AssembledFile} {w w' : World σ} {place : Place} (ht : t.Evolves w.tree)
    (hreal : settings.write.dryRun = false)
    (h : (writeAll settings [] items).exec w = (.ok files, w'))
    (hmem : ∃ item ∈ items,
      t.EntryOf (Path.join settings.output item.1.candidate.path) place) :
    ∃ item ∈ items, t.EntryOf (Path.join settings.output item.1.candidate.path) place ∧
      ∃ before content,
        combined settings.write.mode (.ofPath item.1.candidate.path) before item.2 =
          some content ∧
        w'.tree.content? place = some content := by
  induction items generalizing w files with
  | nil =>
    obtain ⟨_, hnil, _⟩ := hmem
    cases hnil
  | cons item items ih =>
    obtain ⟨file, others, w₁, hone, hothers, rfl⟩ := Work.exec_mapM_cons_ok.1 h
    obtain ⟨place', content, before, hputs, hcontent, _⟩ := writeOne_ok ht hreal hone
    have ht₁ := ht.trans hputs.evolves
    -- the last write at the entry counts, so the others are asked first
    by_cases hlater : ∃ item ∈ items,
        t.EntryOf (Path.join settings.output item.1.candidate.path) place
    · obtain ⟨i, hi, hrest⟩ := ih ht₁ hothers hlater
      exact ⟨i, List.mem_cons_of_mem _ hi, hrest⟩
    · have hentry : t.EntryOf (Path.join settings.output item.1.candidate.path) place := by
        obtain ⟨i, hi, he⟩ := hmem
        rcases List.mem_cons.1 hi with rfl | hi
        · exact he
        · exact absurd ⟨i, hi, he⟩ hlater
      have hkept := (writeAll_keeps ht₁ hothers).2 place fun i hi he => hlater ⟨i, hi, he⟩
      obtain rfl := hputs.entry.unique hentry
      refine ⟨item, List.mem_cons_self, hentry, before, content, hcontent, ?_⟩
      rw [hkept.content?, hputs.here]

end ConfigPack.Assembly
