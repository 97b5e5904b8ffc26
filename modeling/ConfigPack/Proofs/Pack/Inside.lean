import ConfigPack.Proofs.Archive.Roundtrip
import ConfigPack.Proofs.Assembly.Writing
import ConfigPack.Proofs.FileTree.Sound
import ConfigPack.Proofs.FileTree.Spelled
import ConfigPack.Proofs.Pack.Failure

/-!
# Where unpacking writes

Names reach an unpacking from an archive, from listeners and from a manifest, and each way to write
has a check of its own.  Whatever comes of it, a file is made or changed only where one or more
names of entries lead from the staging directory or from the output directory.
-/

namespace ConfigPack

variable {σ : Type} {t t' : FileTree} {base path : String} {place : Place}

/-! ## Below a path -/

namespace FileTree

/-- One or more names of entries lead from a path to a place; a link at the end stands there itself
or is followed. -/
def Inside (t : FileTree) (base : String) (place : Place) : Prop :=
  ∃ above name root directory, AreEntries (above ++ [name]) ∧ t.LeadsTo base root ∧
    t.Leads root above directory ∧
      (place = directory ++ [name] ∨ t.Leads directory [name] place)

/-- Without links the place is that of the names. -/
lemma Inside.below (hfree : t.LinkFree []) (h : t.Inside base place) :
    ∃ root names, t.LeadsTo base root ∧ AreEntries names ∧ names ≠ [] ∧ place = root ++ names := by
  obtain ⟨above, name, root, directory, hentries, hroot, habove, hplace⟩ := h
  have hup : ∀ s ∈ above ++ [name], s ≠ ".." := fun s hs => (hentries s hs).1.ne_up
  have hdirectory : directory = root ++ above :=
    habove.of_linkFree hfree List.nil_prefix fun hm => hup ".." (List.mem_append_left _ hm) rfl
  refine ⟨root, above ++ [name], hroot, hentries, by simp, ?_⟩
  rw [← List.append_assoc, ← hdirectory]
  rcases hplace with rfl | hlast
  · rfl
  · refine hlast.of_linkFree hfree List.nil_prefix fun hm => ?_
    exact hup ".." (List.mem_append_right _ hm) rfl

/-- The names of a path that stays inside can all stand in directories. -/
lemma areEntries_names (h : Path.staysInside path = true) : AreEntries (Path.names path) := by
  intro name hname
  obtain ⟨hsegment, hempty, hdot⟩ := Path.mem_proper.1 hname
  refine ⟨⟨hempty, hdot, ?_⟩, Path.slash_notMem_of_mem_segments hsegment⟩
  rintro rfl
  exact (Path.staysInside_iff.1 h).2 hname

/-- The entry that a path names below another. -/
lemma EntryOf.inside {above : List String} {name : String} (hin : Path.staysInside path = true)
    (hpath : Path.names path = above ++ [name]) (h : t.EntryOf (Path.join base path) place) :
    t.Inside base place := by
  have hrel := (Path.staysInside_iff.1 hin).1
  obtain ⟨above', name', directory, hnames, _, hleads, rfl⟩ := h
  rw [Path.names_join hrel, hpath, ← List.append_assoc] at hnames
  obtain ⟨rfl, hname⟩ := List.append_inj' hnames rfl
  cases hname
  obtain ⟨root, hroot, habove⟩ := hleads.split rfl
  rw [FileTree.start, Path.isAbsolute_join hrel] at hroot
  exact ⟨above, name, root, directory, hpath ▸ areEntries_names hin, hroot, habove, .inl rfl⟩

/-- The place to which a path below another leads. -/
lemma LeadsTo.inside {above : List String} {name : String} (hin : Path.staysInside path = true)
    (hpath : Path.names path = above ++ [name]) (h : t.LeadsTo (Path.join base path) place) :
    t.Inside base place := by
  have hrel := (Path.staysInside_iff.1 hin).1
  obtain ⟨directory, hfront, hlast⟩ := Leads.split h (a := Path.names base ++ above) (b := [name])
    (by rw [Path.names_join hrel, hpath, List.append_assoc])
  obtain ⟨root, hroot, habove⟩ := hfront.split rfl
  rw [FileTree.start, Path.isAbsolute_join hrel] at hroot
  exact ⟨above, name, root, directory, hpath ▸ areEntries_names hin, hroot, habove, .inr hlast⟩

/-- A path below another that ends with the name of an entry, slashes apart, ends with a name of its
own: it is not made of dots. -/
lemma exists_last_of_lastStep {front : List String} {name : String}
    (hrel : Path.isAbsolute path = false) (hne : path ≠ "")
    (hlast : (lastStep (Path.join base path)).1 = front ++ [name]) :
    ∃ above, (lastStep path).1 = above ++ [name] := by
  obtain ⟨before, hsegments, _⟩ := Path.segments_join base hrel
  rw [lastStep_fst, hsegments, List.filter_append, ← lastStep_fst path] at hlast
  have hown : (lastStep path).1 ≠ [] := by
    intro hnil
    rw [lastStep_fst, List.filter_eq_nil_iff] at hnil
    obtain ⟨first, rest, hfirst⟩ := List.exists_cons_of_ne_nil (Path.segments_ne_nil path)
    have hempty : first = "" := by simpa using hnil first (by simp [hfirst])
    apply Path.segments_of_not_isAbsolute hrel hne
    rw [hfirst, hempty]
    rfl
  have hend := congrArg List.getLast? hlast
  rw [List.getLast?_append_of_ne_nil _ hown, List.getLast?_concat] at hend
  exact List.getLast?_eq_some_iff.1 hend

end FileTree

/-! ## Changes that are confined -/

/-- A tree that has evolved from another, files only at places of a kind. -/
structure Confined (t : FileTree) (P : Place → Prop) (t' : FileTree) : Prop where
  evolves : t.Evolves t'
  kept : ∀ q, ¬ P q → t.Keeps t' q

variable {P Q : Place → Prop}

/-- Nothing has changed at first. -/
lemma Confined.refl (t : FileTree) : Confined t P t := ⟨.refl t, fun q _ => .refl t q⟩

/-- A change at places of one kind is one at places of a wider kind. -/
lemma Confined.mono (h : Confined t P t') (hPQ : ∀ q, P q → Q q) : Confined t Q t' :=
  ⟨h.evolves, fun q hq => h.kept q (mt (hPQ q) hq)⟩

/-- A confined change is followed by another one. -/
lemma Confined.next {t'' : FileTree} (h : Confined t P t') (hevolves : t'.Evolves t'')
    (hkept : ∀ q, ¬ P q → t'.Keeps t'' q) : Confined t P t'' :=
  ⟨h.evolves.trans hevolves, fun q hq => (h.kept q hq).trans (hkept q hq)⟩

/-- It may be followed by the making of directories anywhere. -/
lemma Confined.grows {R : Place → Prop} {t'' : FileTree} (h : Confined t P t')
    (hgrows : t'.Grows R t'') : Confined t P t'' :=
  h.next hgrows.evolves fun q _ => hgrows.keeps q

/-- It may be followed by a file at a place of the kind. -/
lemma Confined.set_file (h : Confined t P t') (hP : P place) (hne : place ≠ [])
    (hdir : t'.node? place ≠ some .directory) (data : ByteArray) (mode : Nat) :
    Confined t P (t'.set place (.file data mode)) := by
  refine h.next (.set_file hne hdir data mode) fun q hq => ?_
  exact FileTree.keeps_set_of_ne hne _ fun e => hq (e ▸ hP)

/-! ## Writing to the output directory -/

section

variable {output : String} {bus : Bus σ} (hbus : ∀ l ∈ bus, l.KeepsPath)
  (hP : ∀ q, t.Inside output q → P q)
include hbus hP

/-- A file is written below the output directory, when its path stays inside. -/
lemma Output.write_confined {settings : WriteSettings} {data : ByteArray}
    (hin : Path.staysInside path = true) :
    Work.Preserves (Confined t P)
      (Output.write settings bus (Path.join output path) data) := by
  intro w h
  rcases hw : (Output.write settings bus (Path.join output path) data).exec w with ⟨result, w'⟩
  obtain ⟨grown, hgrows, hdone⟩ := Output.write_puts hbus hw
  have hgrown : Confined t P grown := h.grows hgrows
  rcases hdone with rfl | ⟨_, directory, name, content, mode, _, hentry, hlast, hdir, htree⟩
  · exact hgrown
  · -- the entry has a name of the path itself, since its last segment is one
    obtain ⟨above, habove⟩ := Assembly.names_of_getLast? (Path.staysInside_iff.1 hin).1
      hentry.isEntryName hlast
    -- no link was made since the start, so the way to the entry is one of the first tree
    have hinside := (hentry.entryOf hgrown.evolves).inside hin habove
    rw [htree]
    exact hgrown.set_file (hP _ hinside) (by simp) hdir content mode

/-- A candidate is written at places of the kind, if those hold all that is inside the output. -/
lemma Assembly.writeOne_confined {settings : WriteSettings} {frame : Option String}
    {parallel : Bool} (item : Job × ByteArray) :
    Work.Preserves (Confined t P)
      (Assembly.writeOne ⟨frame, output, settings, parallel⟩ bus item) := by
  intro w h
  rw [Assembly.writeOne]
  rcases hpath : Assembly.destination output item.1.candidate.path with e | path
  · exact h
  · obtain ⟨_, hin, rfl⟩ := Assembly.destination_ok hpath
    refine Work.Preserves.bind (.within _ (Output.write_confined hbus hP hin)) (fun written => ?_)
      w h
    exact .bind (Work.Still.record _ _ _).preserves fun _ => .pure _

/-- An assembly writes below its output directory. -/
lemma Assembly.run_confined {environment : Environment} {settings : WriteSettings}
    {frame : Option String} {parallel : Bool} :
    Work.Preserves (Confined t P)
      (Assembly.run environment ⟨frame, output, settings, parallel⟩ bus) := by
  rw [Assembly.run_eq]
  refine .bind (Assembly.choose_still _ _ _).preserves fun chosen => ?_
  refine .bind (Assembly.renderAll_still _ _ _).preserves fun texts => ?_
  refine .bind (.mapM fun item _ => Assembly.writeOne_confined hbus hP item) fun files => ?_
  exact .pure _

/-- So is an installation, with all that it writes. -/
lemma Install.runFrom_confined {manifest : Manifest} {source : FileTree → Fuel.Source}
    {settings : WriteSettings} {frame : Option String} {parallel : Bool} {prompter : Prompter σ} :
    Work.Preserves (Confined t P)
      (Install.runFrom manifest source ⟨frame, output, settings, parallel⟩ prompter bus) := by
  refine .bind (Install.resolve_still _ _ _ _).preserves fun resolved => ?_
  refine .bind (Work.Still.log _ _).preserves fun _ => ?_
  refine .bind (.within _ (Assembly.run_confined hbus hP)) fun report => ?_
  exact .bind (Work.Still.log _ _).preserves fun _ => .pure _

end

namespace Pack

variable {staging : String} {settings : UnpackSettings} {prompter : Prompter σ} {bus : Bus σ}

section

variable (hbus : ∀ l ∈ bus, l.KeepsPath) (hP : ∀ q, t.Inside settings.output q → P q)
include hbus hP

/-- So is the installation of what is staged. -/
lemma installStaged_confined :
    Work.Preserves (Confined t P) (installStaged staging settings prompter bus) := by
  refine .bind (Work.Still.look _ _).preserves fun loaded => ?_
  refine .bind (logWarnings_still loaded).preserves fun _ => ?_
  exact Install.runFrom_confined hbus hP

/-- So is an entry of a plain archive. -/
lemma extractEntry_confined (entry : String × ByteArray) :
    Work.Preserves (Confined t P) (extractEntry settings bus entry) := by
  obtain ⟨name, data⟩ := entry
  rw [extractEntry]
  cases hsafe : Archive.isSafeName name with
  | false => exact fun w h => h
  | true =>
    refine .bind (.within _ ?_) fun written => (Work.Still.record _ _ _).preserves
    exact Output.write_confined hbus hP (Archive.staysInside_of_isSafeName hsafe)

end

/-! ## Staging -/

/-- What the staging of entries has done to a tree. -/
structure StagedInside (t : FileTree) (staging : String) (t' : FileTree) : Prop where
  sameLinks : t.SameLinks t'
  rooted : t'.Rooted
  confined : Confined t (t.Inside staging) t'

/-- Directories that are made while entries are staged. -/
lemma StagedInside.makeDirectories (h : StagedInside t staging t') (above : String) :
    StagedInside t staging (t'.makeDirectories above).1 := by
  have hgrows := t'.makeDirectories_grows above
  exact ⟨h.sameLinks.trans hgrows.sameLinks, h.rooted.makeDirectories above,
    h.confined.grows hgrows⟩

/-- A file is staged below the staging directory, since its path ends with a name of its own. -/
lemma StagedInside.write {name : String} {data : ByteArray} (h : StagedInside t staging t')
    (hsafe : Archive.isSafeName name = true) {t'' : FileTree}
    (hwrite : t'.write (Path.join staging name) data = .ok t'') : StagedInside t staging t'' := by
  have hin := Archive.staysInside_of_isSafeName hsafe
  have hne : name ≠ "" := by
    rintro rfl
    cases hsafe
  obtain ⟨hrooted, front, last, hsteps, hlast⟩ := h.rooted.write hwrite
  obtain ⟨place, mode, hleads, hroot, hdir, hlink, rfl⟩ := FileTree.write_ok hwrite
  -- what is written to does not end with a dot, so the last of its names is one of the entry
  obtain ⟨above, habove⟩ :=
    FileTree.exists_last_of_lastStep (Path.staysInside_iff.1 hin).1 hne hsteps
  have hnames : Path.names name = Path.proper above ++ [last] := by
    rw [← FileTree.proper_lastStep, habove, Path.proper_append,
      Path.proper_cons _ hlast.not_trivial]
    rfl
  have hinside := (h.sameLinks.symm.leadsTo hleads).inside hin hnames
  exact ⟨h.sameLinks.trans (.set_file hroot hlink data mode), hrooted,
    h.confined.set_file hinside hroot hdir data mode⟩

/-- One entry is staged below the staging directory. -/
lemma stageEntry_inside (entry : String × ByteArray) :
    Work.Preserves (StagedInside t staging)
      (stageEntry staging entry : Work σ PackError Unit) :=
  stageEntry_preserves (fun _ above h _ => h.makeDirectories above)
    fun hsafe _ _ h hwrite => h.write hsafe hwrite

/-! ## Unpacking -/

/-- What is staged is below the staging directory, and what is installed or extracted is below the
output directory. -/
lemma unpackEntries_confined (hbus : ∀ l ∈ bus, l.KeepsPath) (entries : Dict ByteArray)
    {w : World σ} (hrooted : w.tree.Rooted) :
    Confined w.tree (fun q => w.tree.Inside staging q ∨ w.tree.Inside settings.output q)
      ((unpackEntries entries staging settings prompter bus).exec w).2.tree := by
  rw [unpackEntries]
  split
  · have hstaged : StagedInside w.tree staging ((stageAll staging entries).exec w).2.tree :=
      Work.Preserves.forM (fun entry _ => .within _ (stageEntry_inside entry)) w
        ⟨.refl _, hrooted, .refl _⟩
    refine Work.Preserves.after (hstaged.confined.mono fun _ => .inl) fun _ => ?_
    exact .bind (installStaged_confined hbus fun _ => .inr) fun _ => .pure _
  · refine Work.Preserves.after (.refl _) fun _ => ?_
    refine .bind (Work.Still.within _ (confirmPlain_still _ _)).preserves fun _ => ?_
    refine .bind (.forM fun entry _ => extractEntry_confined hbus (fun _ => .inr) entry) fun _ => ?_
    exact .pure _

/-- All that an unpacking changes is inside the staging directory or inside the output. -/
lemma unpack_confined (hbus : ∀ l ∈ bus, l.KeepsPath) (data : ByteArray) {w : World σ}
    (hrooted : w.tree.Rooted) :
    Confined w.tree (fun q => w.tree.Inside staging q ∨ w.tree.Inside settings.output q)
      ((unpack data staging settings prompter bus).exec w).2.tree := by
  rw [unpack_eq]
  -- nothing is written before the entries are known
  rcases hcheck : (checkData data settings.checksum).exec w with ⟨e | _, w₁⟩
  all_goals
    have h₁ := (checkData_still _ _).tree hcheck
    rw [Work.exec_bind, hcheck]
  · rw [h₁]
    exact .refl _
  rcases hread : (readEntries data bus).exec w₁ with ⟨e | entries, w₂⟩
  all_goals
    have h₂ := ((readEntries_still _ _).tree hread).trans h₁
    simp only [Work.exec_bind, hread]
  · rw [h₂]
    exact .refl _
  · rw [← h₂] at hrooted ⊢
    exact unpackEntries_confined hbus entries hrooted

end Pack

/-- With listeners that write no file to another path than it was meant for, unpacking makes and
changes files only where names of entries lead from the staging directory or from the output
directory, whether it succeeds or fails.  Without links those are places below the two. -/
theorem unpack_stays_inside {data : ByteArray} {staging : String} {settings : UnpackSettings}
    {prompter : Prompter σ} {bus : Bus σ} {result : Except Failure Unpacked} {w w' : World σ}
    {place : Place} (hrooted : w.tree.Rooted) (hbus : ∀ l ∈ bus, l.KeepsPath)
    (h : (Pack.unpack data staging settings prompter bus).exec w = (result, w'))
    (hplace : ¬ w.tree.Keeps w'.tree place) :
    ∃ base, (base = staging ∨ base = settings.output) ∧ w.tree.Inside base place ∧
      (w.tree.LinkFree [] → ∃ root names, w.tree.LeadsTo base root ∧ FileTree.AreEntries names ∧
        names ≠ [] ∧ place = root ++ names) := by
  have hconfined : Confined w.tree
      (fun q => w.tree.Inside staging q ∨ w.tree.Inside settings.output q)
      ((Pack.unpack data staging settings prompter bus).exec w).2.tree :=
    Pack.unpack_confined hbus data hrooted
  rw [h] at hconfined
  by_contra hnone
  refine hplace (hconfined.kept place fun hinside => hnone ?_)
  rcases hinside with hinside | hinside
  · exact ⟨staging, .inl rfl, hinside, fun hfree => hinside.below hfree⟩
  · exact ⟨settings.output, .inr rfl, hinside, fun hfree => hinside.below hfree⟩

/-- The entries of an archive with one file. -/
def noteEntries : Dict ByteArray := ⟨[("a.txt", "text\n".toUTF8)], by decide⟩

/-- The entries of the archive are read back. -/
lemma note_entries : Archive.entries (Archive.ofEntries noteEntries) = .ok noteEntries := by
  refine Archive.entries_ofEntries (Archive.returned_of_fits ⟨by decide, by decide, by decide⟩) ?_
    (by decide)
  intro name hname
  rw [List.mem_singleton.1 hname]
  exact ⟨by decide, by decide, by decide +kernel, by decide⟩

/-- A listener that adds an entry to those of an archive. -/
def addsEntry : Listener Unit where
  onExtract := fun entries => pure (entries.insert "docs/b.txt" "more\n".toUTF8)

/-- The listener moves no file. -/
lemma addsEntry_keepsPath : addsEntry.KeepsPath where
  write := by
    intro draft draft' s s' h
    cases h
    rfl
  merge := by
    intro draft draft' s s' h
    cases h
    rfl

/-- The tree of the world is well formed. -/
lemma oldWorld_sound : oldWorld.tree.Sound := by
  refine FileTree.sound_of_nodes (by decide) ?_ rfl
  simp only [oldWorld, List.forall_mem_cons]
  exact ⟨rfl, rfl, by simp⟩

/-- For instance, an entry that a listener adds is extracted below the output. -/
theorem added_entry_stays_inside :
    ∃ result w', (Pack.unpack (Archive.ofEntries noteEntries) "staging"
        ⟨none, .extract, "out", ⟨.off, false⟩, true⟩ .defaults [addsEntry]).exec oldWorld = (result, w') ∧
      w'.tree.content? ["out", "docs", "b.txt"] = some "more\n".toUTF8 ∧
      ∃ base, (base = "staging" ∨ base = "out") ∧
        oldWorld.tree.Inside base ["out", "docs", "b.txt"] := by
  have hrun : ((Pack.unpack (Archive.ofEntries noteEntries) "staging"
      ⟨none, .extract, "out", ⟨.off, false⟩, true⟩ .defaults [addsEntry]).exec oldWorld).2.tree.content?
        ["out", "docs", "b.txt"] = some "more\n".toUTF8 := by
    rw [Pack.unpack_of_entries note_entries rfl]
    decide +kernel
  rcases h : (Pack.unpack (Archive.ofEntries noteEntries) "staging"
    ⟨none, .extract, "out", ⟨.off, false⟩, true⟩ .defaults [addsEntry]).exec oldWorld with ⟨result, w'⟩
  rw [h] at hrun
  refine ⟨result, w', rfl, hrun, ?_⟩
  have hplace : ¬ oldWorld.tree.Keeps w'.tree ["out", "docs", "b.txt"] := by
    intro hkeeps
    have hbefore : oldWorld.tree.content? ["out", "docs", "b.txt"] = none := by decide +kernel
    rw [hkeeps.content?, hbefore] at hrun
    cases hrun
  obtain ⟨base, hbase, hinside, _⟩ := unpack_stays_inside oldWorld_sound.rooted
    (List.forall_mem_singleton.2 addsEntry_keepsPath) h hplace
  exact ⟨base, hbase, hinside⟩

/-- A listener that merges to another path. -/
def mergesElsewhere : Listener Unit where
  onMerge := fun draft => pure { draft with path := "b.txt" }

/-- A merge that is sent elsewhere is written outside of both directories. -/
theorem merge_leaves_output :
    (∀ draft, mergesElsewhere.onWrite draft = pure draft) ∧
    ∃ result w', (Pack.unpack (Archive.ofEntries noteEntries) "staging"
        ⟨none, .extract, "out", ⟨.concat, false⟩, true⟩ .defaults [mergesElsewhere]).exec oldWorld =
          (result, w') ∧
      oldWorld.tree.content? ["b.txt"] = none ∧
      w'.tree.content? ["b.txt"] = some "old\ntext\n".toUTF8 ∧
      ∀ base, base = "staging" ∨ base = "out" → ¬ oldWorld.tree.Inside base ["b.txt"] := by
  have hrun : ((Pack.unpack (Archive.ofEntries noteEntries) "staging"
      ⟨none, .extract, "out", ⟨.concat, false⟩, true⟩ .defaults
        [mergesElsewhere]).exec oldWorld).2.tree.content? ["b.txt"] =
          some "old\ntext\n".toUTF8 := by
    rw [Pack.unpack_of_entries note_entries rfl]
    decide +kernel
  rcases h : (Pack.unpack (Archive.ofEntries noteEntries) "staging"
    ⟨none, .extract, "out", ⟨.concat, false⟩, true⟩ .defaults [mergesElsewhere]).exec oldWorld with
      ⟨result, w'⟩
  rw [h] at hrun
  refine ⟨fun _ => rfl, result, w', rfl, by decide +kernel, hrun, fun base hbase hinside => ?_⟩
  have hfree : oldWorld.tree.LinkFree [] := FileTree.linkFree_of_nodes (by simp [oldWorld]) []
  obtain ⟨root, names, hroot, _, _, hplace⟩ := hinside.below hfree
  -- the root is one name, that of the directory, and it comes first
  have hnames : Path.names base = [base] ∧ base ≠ "b.txt" ∧ base ≠ ".." := by
    rcases hbase with rfl | rfl <;> decide +kernel
  have hstart : FileTree.start oldWorld.tree.workingDirectory base = [] := by
    rcases hbase with rfl | rfl <;> rfl
  rw [FileTree.LeadsTo, hnames.1, hstart] at hroot
  rw [hroot.of_linkFree hfree List.nil_prefix (by simpa using hnames.2.2.symm)] at hplace
  exact hnames.2.1 (List.cons.inj hplace).1.symm

end ConfigPack
