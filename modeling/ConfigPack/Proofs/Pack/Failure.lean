import ConfigPack.Proofs.Archive.Entry
import ConfigPack.Proofs.Archive.Roundtrip
import ConfigPack.Proofs.Install
import ConfigPack.Proofs.Listeners
import ConfigPack.Proofs.Pack.Staging

/-!
# Failures before the first write

An installation that fails before it writes leaves all files as they are.  An archive that is
unpacked is first staged, so there the same holds for all places that staging stays off.
-/

namespace ConfigPack

variable {σ : Type}

/-! ## The entries of an archive -/

namespace Archive

/-- Safe names stay inside. -/
lemma staysInside_of_isSafeName {name : String} (h : isSafeName name = true) :
    Path.staysInside name = true :=
  (Bool.and_eq_true_iff.1 h).2

/-- An entry that is added has a safe name. -/
lemma addEntry_safe {data : ByteArray} {found found' : Dict ByteArray} {m : Member}
    (h : addEntry data found m = .ok found')
    (hfound : ∀ name ∈ found.keys, isSafeName name = true) :
    ∀ name ∈ found'.keys, isSafeName name = true := by
  rcases addEntry_ok h with ⟨_, rfl⟩ | ⟨_, hsafe, content, _, rfl⟩
  · exact hfound
  · intro name hmem
    rcases Dict.mem_keys_insert.1 hmem with rfl | hmem
    · exact hsafe
    · exact hfound name hmem

/-- So have all entries that are added. -/
lemma foldlM_addEntry_safe {data : ByteArray} {found : Dict ByteArray} :
    ∀ {members : List Member} {start : Dict ByteArray},
      (∀ name ∈ start.keys, isSafeName name = true) →
      members.foldlM (addEntry data) start = .ok found →
      ∀ name ∈ found.keys, isSafeName name = true
  | [], start, hstart, h => by
    cases h
    exact hstart
  | m :: members, start, hstart, h => by
    rw [List.foldlM_cons] at h
    obtain ⟨next, hnext, h⟩ := Result.bind_eq_ok.1 h
    exact foldlM_addEntry_safe (addEntry_safe hnext hstart) h

/-- The entries of an archive have safe names. -/
lemma entries_safe {data : ByteArray} {found : Dict ByteArray} (h : entries data = .ok found) :
    ∀ name ∈ found.keys, isSafeName name = true := by
  obtain ⟨members, _, h⟩ := Result.bind_eq_ok.1 h
  exact foldlM_addEntry_safe (by simp [Dict.keys, Dict.empty]) h

end Archive

/-- A listener that adds no entries to those of an archive. -/
def Listener.AddsNoEntries (listener : Listener σ) : Prop :=
  ∀ entries host kept host', (listener.onExtract entries).run.run host = (.ok kept, host') →
    ∀ name ∈ kept.keys, name ∈ entries.keys

/-- Listeners that add no entries leave only entries that were there. -/
lemma Bus.emitExtract_keys {bus : Bus σ} (hbus : ∀ l ∈ bus, l.AddsNoEntries)
    {entries kept : Dict ByteArray} {host host' : σ}
    (h : (bus.emitExtract entries).run.run host = (.ok kept, host')) :
    ∀ name ∈ kept.keys, name ∈ entries.keys := by
  refine Bus.emit_related (R := fun a b : Dict ByteArray => ∀ name ∈ b.keys, name ∈ a.keys)
    (fun _ _ hname => hname) (fun _ _ _ hab hbc name hname => hab name (hbc name hname)) ?_ h
  exact fun l hl a b s s' hrun => hbus l hl a s b s' hrun

namespace Pack

/-- A way that leads to no place below another. -/
def StaysOff (tree : FileTree) (path : String) (base : Place) : Prop :=
  ∀ place, tree.Passing path place → base <+: place → place = base

/-- Without links, what is staged in a directory stays off a place that is apart from it. -/
lemma staysOff_of_apart {tree : FileTree} (hfree : tree.LinkFree []) {staging name : String}
    {place base : Place} (hplace : tree.LeadsTo staging place) (hup : ".." ∉ Path.names staging)
    (hname : Path.staysInside name = true) (hbase : ¬ base <+: place)
    (hstaging : ¬ place <+: base) :
    StaysOff tree (Path.join staging name) base := by
  obtain ⟨hrel, hup'⟩ := Path.staysInside_iff.1 hname
  rintro goal ⟨front, hpre, hl⟩ hbelow
  rw [Path.names_join hrel] at hpre
  have hfront : ".." ∉ front := fun hm => by
    rcases List.mem_append.1 (hpre.subset hm) with hm | hm
    · exact hup hm
    · exact hup' hm
  rw [FileTree.start, Path.isAbsolute_join hrel] at hl
  rw [hl.of_linkFree hfree List.nil_prefix hfront] at hbelow
  have hall : base <+: place ++ Path.names name := by
    rw [hplace.of_linkFree hfree List.nil_prefix hup, List.append_assoc]
    exact hbelow.trans (List.prefix_append_right_inj _ |>.2 hpre)
  -- both lead to the same place further down, so one would be above the other
  rcases List.prefix_or_prefix_of_prefix hall (List.prefix_append ..) with h | h
  · exact absurd h hbase
  · exact absurd h hstaging

/-- To ask about a plain archive changes no file. -/
lemma confirmPlain_still (plain : PlainArchive) (prompter : Prompter σ) :
    Work.Still (confirmPlain plain prompter) := by
  cases plain with
  | extract => exact .pure _
  | refuse => exact .throw _
  | ask => exact .bind (.withHost _ _) fun answer => .liftM _

/-- Entries with safe names fail to be extracted only when they fail to be written. -/
lemma extractEntry_error {settings : UnpackSettings} {bus : Bus σ} {entry : String × ByteArray}
    {e : Failure} {w w' : World σ} (hsafe : Archive.isSafeName entry.1 = true)
    (h : (extractEntry settings bus entry).exec w = (.error e, w')) : e.isInWriting = true := by
  simp only [extractEntry, hsafe, Bool.not_true, Bool.false_eq_true, ↓reduceIte] at h
  rcases Work.exec_bind_error.1 h with h | ⟨written, w₁, _, h⟩
  · rw [Work.exec_within, Prod.mk.injEq, Result.mapError_eq_error] at h
    obtain ⟨⟨failure, _, rfl⟩, _⟩ := h
    rfl
  · cases h

/-- To log warnings changes no file. -/
lemma logWarnings_still (manifest : Manifest) :
    Work.Still (manifest.logWarnings : Work σ Failure Unit) :=
  .forM fun _ _ => .log _ _

/-- Installing what is staged leaves the files as they are when it does not fail to write. -/
lemma installStaged_error {staging : String} {settings : UnpackSettings} {prompter : Prompter σ}
    {bus : Bus σ} {e : Failure} {w w' : World σ} (he : e.isInWriting = false)
    (h : (installStaged staging settings prompter bus).exec w = (.error e, w')) :
    w'.tree = w.tree := by
  rcases Work.exec_bind_error.1 h with h | ⟨loaded, w₁, hload, h⟩
  · exact (Work.Still.look _ _).tree h
  have h₁ := (Work.Still.look _ _).tree hload
  rcases Work.exec_bind_error.1 h with h | ⟨_, w₂, hlog, h⟩
  · rw [(logWarnings_still loaded).tree h, h₁]
  have h₂ := (logWarnings_still loaded).tree hlog
  have hassembly : ∀ error, e = .assembly error → error.isInWriting = false := by
    rintro error rfl
    exact he
  rw [Install.runFrom_error hassembly h, h₂, h₁]

/-- When unpacking the entries of an archive fails before anything is written to the output
directory, only what was staged has changed. -/
lemma unpackEntries_error {entries : Dict ByteArray} {staging : String} {settings : UnpackSettings}
    {prompter : Prompter σ} {bus : Bus σ} {e : Failure} {w w' : World σ}
    (hsafe : ∀ name ∈ entries.keys, Archive.isSafeName name = true) (he : e.isInWriting = false)
    (h : (unpackEntries entries staging settings prompter bus).exec w = (.error e, w')) :
    Staged w.tree (entries.keys.map (Path.join staging)) w'.tree := by
  have hpaths : entries.entries.map (fun entry => Path.join staging entry.1) =
      entries.keys.map (Path.join staging) := by
    rw [Dict.keys, List.map_map]
    rfl
  rw [unpackEntries] at h
  split at h
  · have hstaged := stageEntries_staged staging entries.entries w
    rw [hpaths] at hstaged
    rcases Work.exec_bind_error.1 h with h | ⟨_, w₁, hstage, h⟩
    · rwa [h] at hstaged
    rw [hstage] at hstaged
    rcases Work.exec_bind_error.1 h with h | ⟨installed, w₂, _, h⟩
    · rwa [installStaged_error he h]
    · cases h
  · rcases Work.exec_bind_error.1 h with h | ⟨_, w₁, hlog, h⟩
    · cases h
    have h₁ := (Work.Still.log _ _).tree hlog
    -- a plain archive is asked about before anything is extracted
    have hconfirm : Work.Still (Work.within Failure.pack (confirmPlain settings.plain prompter)) :=
      .within _ (confirmPlain_still _ _)
    rcases Work.exec_bind_error.1 h with h | ⟨_, w₂, _, h⟩
    · rw [hconfirm.tree h, h₁]
      exact .refl _ _
    rcases Work.exec_bind_error.1 h with h | ⟨_, w₃, _, h⟩
    · -- an extraction fails only in writing, which is not the error at hand
      obtain ⟨entry, hentry, before, after, hone⟩ := Work.exec_forM_error h
      rw [extractEntry_error (hsafe entry.1 (List.mem_map_of_mem hentry)) hone] at he
      cases he
    · cases h

/-- What comes first: the archive is checked when a checksum is expected. -/
def checkData (data : ByteArray) (expected : Option String) : Work σ Failure Unit :=
  match expected with
  | some expected => do
    liftM ((verifyChecksum data expected).mapError (Failure.pack ∘ .checksum))
    Work.log .debug "checksum verified"
  | none => pure ()

/-- What comes next: the entries are read and listeners hear of them. -/
def readEntries (data : ByteArray) (bus : Bus σ) : Work σ Failure (Dict ByteArray) := do
  Work.log .stage "Extracting"
  let entries ← liftM ((Archive.entries data).mapError (Failure.pack ∘ .archive))
  let entries ← Work.withHost (.pack ∘ .hook) (bus.emitExtract entries)
  Work.log .info s!"{entries.size} entries extracted"
  return entries

/-- Unpacking is to check, to read and to go on with the entries. -/
lemma unpack_eq (data : ByteArray) (staging : String) (settings : UnpackSettings)
    (prompter : Prompter σ) (bus : Bus σ) :
    unpack data staging settings prompter bus = (do
      checkData data settings.checksum
      let entries ← readEntries data bus
      unpackEntries entries staging settings prompter bus) := by
  simp only [unpack, checkData, readEntries, bind_assoc, pure_bind]
  cases settings.checksum with
  | none => simp only [pure_bind]
  | some expected => simp only [bind_assoc]

/-- Unpacking an archive whose entries are known, when no checksum is expected. -/
lemma unpack_of_entries {data : ByteArray} {entries : Dict ByteArray} {staging : String}
    {settings : UnpackSettings} {prompter : Prompter σ} {bus : Bus σ}
    (hentries : Archive.entries data = .ok entries) (hchecksum : settings.checksum = none) :
    unpack data staging settings prompter bus = (do
      Work.log .stage "Extracting"
      let kept ← Work.withHost (.pack ∘ .hook) (bus.emitExtract entries)
      Work.log .info s!"{kept.size} entries extracted"
      unpackEntries kept staging settings prompter bus) := by
  rw [unpack, hchecksum, hentries]
  rfl

/-- To check a digest changes no file. -/
lemma checkData_still (data : ByteArray) (expected : Option String) :
    Work.Still (checkData data expected : Work σ Failure Unit) := by
  cases expected with
  | none => exact .pure _
  | some expected => exact .bind (.liftM _) fun _ => .log _ _

/-- To read an archive changes no file, whatever the listeners make of its entries. -/
lemma readEntries_still (data : ByteArray) (bus : Bus σ) : Work.Still (readEntries data bus) := by
  refine .bind (.log _ _) fun _ => .bind (.liftM _) fun entries => ?_
  exact .bind (.withHost _ _) fun kept => .bind (.log _ _) fun _ => .pure _

/-- The entries that listeners leave are entries of the archive. -/
lemma readEntries_ok {data : ByteArray} {bus : Bus σ} (hbus : ∀ l ∈ bus, l.AddsNoEntries)
    {kept : Dict ByteArray} {w w' : World σ}
    (h : (readEntries data bus).exec w = (.ok kept, w')) :
    ∃ entries, Archive.entries data = .ok entries ∧ ∀ name ∈ kept.keys, name ∈ entries.keys := by
  obtain ⟨_, w₁, _, h⟩ := Work.exec_bind_ok.1 h
  obtain ⟨entries, w₂, hentries, h⟩ := Work.exec_bind_ok.1 h
  obtain ⟨heard, w₃, hheard, h⟩ := Work.exec_bind_ok.1 h
  obtain ⟨_, w₄, _, h⟩ := Work.exec_bind_ok.1 h
  cases h
  simp only [Work.exec_liftM, Prod.mk.injEq, Result.mapError_eq_ok] at hentries
  simp only [Work.exec_withHost, Prod.mk.injEq, Result.mapError_eq_ok] at hheard
  exact ⟨entries, hentries.1, Bus.emitExtract_keys hbus (Prod.ext hheard.1 rfl)⟩

/-- When unpacking an archive fails before anything is written to the output directory, only places
have changed to which the entries of the archive lead where they are staged. -/
lemma unpack_error {data : ByteArray} {staging : String} {settings : UnpackSettings}
    {prompter : Prompter σ} {bus : Bus σ} (hbus : ∀ l ∈ bus, l.AddsNoEntries) {e : Failure}
    {w w' : World σ} (he : e.isInWriting = false)
    (h : (unpack data staging settings prompter bus).exec w = (.error e, w')) {q : Place}
    (hq : ∀ entries, Archive.entries data = .ok entries →
      ∀ name ∈ entries.keys, ¬ w.tree.Passing (Path.join staging name) q) :
    w'.tree.node? q = w.tree.node? q := by
  rw [unpack_eq] at h
  rcases Work.exec_bind_error.1 h with h | ⟨_, w₁, hcheck, h⟩
  · rw [(checkData_still _ _).tree h]
  have h₁ := (checkData_still _ _).tree hcheck
  rcases Work.exec_bind_error.1 h with h | ⟨kept, w₂, hread, h⟩
  · rw [(readEntries_still _ _).tree h, h₁]
  have h₂ := (readEntries_still _ _).tree hread
  obtain ⟨entries, hentries, hkept⟩ := readEntries_ok hbus hread
  have hsafe := Archive.entries_safe hentries
  have hstaged := unpackEntries_error (fun name hname => hsafe name (hkept name hname)) he h
  rw [h₂, h₁] at hstaged
  apply hstaged.kept q
  intro path hpath
  obtain ⟨name, hname, rfl⟩ := List.mem_map.1 hpath
  exact hq entries hentries name (hkept name hname)

end Pack

/-- An installation that fails with anything but a failure to write leaves all files as they are.
Unpacking that fails so, with listeners that add no entries to the archive, leaves everything below
the output directory as it is when the ways to its staged entries stay off the places there. -/
theorem early_failures_keep_output :
    (∀ (manifest : Manifest) (source : FileTree → Fuel.Source) (settings : AssemblySettings)
      (prompter : Prompter σ) (bus : Bus σ) (e : Failure) (w w' : World σ),
      (Install.runFrom manifest source settings prompter bus).exec w = (.error e, w') →
      (∀ error, e ≠ .assembly (.output error)) → (∀ path, e ≠ .assembly (.escapes path)) →
      w'.tree = w.tree) ∧
    ∀ (data : ByteArray) (staging : String) (settings : UnpackSettings) (prompter : Prompter σ)
      (bus : Bus σ) (e : Failure) (w w' : World σ) (base : Place),
      (∀ l ∈ bus, l.AddsNoEntries) →
      w.tree.LeadsTo settings.output base →
      (∀ entries, Archive.entries data = .ok entries →
        ∀ name ∈ entries.keys, Pack.StaysOff w.tree (Path.join staging name) base) →
      (Pack.unpack data staging settings prompter bus).exec w = (.error e, w') →
      (∀ error, e ≠ .assembly (.output error)) → (∀ path, e ≠ .assembly (.escapes path)) →
      (∀ error, e ≠ .output error) →
      ∀ place, base <+: place → place ≠ base → w'.tree.node? place = w.tree.node? place := by
  have hwriting : ∀ error : AssemblyError, (∀ e, error ≠ .output e) →
      (∀ path, error ≠ .escapes path) → error.isInWriting = false := by
    intro error houtput hescapes
    cases error with
    | output e => exact absurd rfl (houtput e)
    | escapes path => exact absurd rfl (hescapes path)
    | _ => rfl
  constructor
  · intro manifest source settings prompter bus e w w' h houtput hescapes
    apply Install.runFrom_error _ h
    rintro error rfl
    exact hwriting error (fun e he => houtput e (he ▸ rfl)) fun path he => hescapes path (he ▸ rfl)
  · intro data staging settings prompter bus e w w' base hbus hbase hoff h houtput hescapes hwrite
      place hbelow hne
    have he : e.isInWriting = false := by
      cases e with
      | output error => exact absurd rfl (hwrite error)
      | assembly error =>
        exact hwriting error (fun e he => houtput e (he ▸ rfl)) fun path he =>
          hescapes path (he ▸ rfl)
      | _ => rfl
    apply Pack.unpack_error hbus he h
    intro entries hentries name hname hpassing
    exact hne (hoff entries hentries name hname place hpassing hbelow)

/-- Whether a result is a failure of the configuration. -/
def failsInConfig {α : Type} : Except Failure α → Bool
  | .error (.config _) => true
  | _ => false

/-- A result that is an error of the configuration. -/
lemma failsInConfig_iff {α : Type} {result : Except Failure α} :
    failsInConfig result = true ↔ ∃ error, result = .error (.config error) := by
  constructor
  · intro h
    rcases result with (error | _ | _ | _) | _
    · exact ⟨error, rfl⟩
    all_goals cases h
  · rintro ⟨error, rfl⟩
    rfl

/-- A pack whose manifest is no document. -/
def brokenPack : ByteArray :=
  Archive.ofEntries (.ofList [(Pack.manifestName, "[".toUTF8), ("frame/a.txt", "text\n".toUTF8)])

/-- It is read back. -/
lemma brokenPack_read : Archive.entries brokenPack =
    .ok (.ofList [(Pack.manifestName, "[".toUTF8), ("frame/a.txt", "text\n".toUTF8)]) := by
  refine Archive.entries_ofEntries (Archive.returned_of_fits
    ⟨by decide +kernel, by decide +kernel, by decide +kernel⟩) ?_ (by decide +kernel)
  have hkeys : (Dict.ofList [(Pack.manifestName, "[".toUTF8), ("frame/a.txt", "text\n".toUTF8)]).keys =
      ["frame/a.txt", Pack.manifestName] := by decide +kernel
  rw [hkeys]
  simp only [List.forall_mem_cons]
  exact ⟨⟨by decide, by decide, by decide +kernel, by decide⟩,
    ⟨by decide, by decide, by decide +kernel, by decide⟩, by simp⟩

/-- A world with one file in an output directory. -/
def oldWorld : World Unit :=
  ⟨⟨#[], ()⟩, ⟨[(["out"], .directory),
    (["out", "a.txt"], .file "old\n".toUTF8 FileTree.newFileMode)], []⟩, .calm⟩

/-- A manifest with a variable whose fuel is missing. -/
def unfueled : Manifest := ⟨[], [("text", .literal "fuel:text")], [], [], .null⟩

/-- For instance, a fuel that is missing leaves all files alone, and a pack whose manifest is broken
leaves the file of the output directory alone. -/
theorem broken_pack_keeps_output :
    (∃ e w', (Install.runFrom unfueled (fun _ => Install.noFuels) ⟨none, "out", ⟨.off, false⟩, true⟩
        .defaults []).exec oldWorld = (.error e, w') ∧ w'.tree = oldWorld.tree) ∧
    ∃ e w', (Pack.unpack brokenPack "staging" ⟨none, .ask, "out", ⟨.off, false⟩, true⟩ .defaults []).exec
        oldWorld = (.error e, w') ∧
      w'.tree.node? ["out", "a.txt"] = oldWorld.tree.node? ["out", "a.txt"] := by
  constructor
  · have hfails : failsInConfig ((Install.runFrom unfueled (fun _ => Install.noFuels)
        ⟨none, "out", ⟨.off, false⟩, true⟩ .defaults []).exec oldWorld).1 = true := by decide +kernel
    rcases he : (Install.runFrom unfueled (fun _ => Install.noFuels) ⟨none, "out", ⟨.off, false⟩, true⟩
      .defaults []).exec oldWorld with ⟨result, w'⟩
    rw [he] at hfails
    obtain ⟨error, rfl⟩ := failsInConfig_iff.1 hfails
    exact ⟨_, w', rfl, early_failures_keep_output.1 _ _ _ _ _ _ _ _ he (by simp) (by simp)⟩
  have hfails : failsInConfig ((Pack.unpack brokenPack "staging" ⟨none, .ask, "out", ⟨.off, false⟩, true⟩
      .defaults []).exec oldWorld).1 = true := by
    rw [Pack.unpack_of_entries brokenPack_read rfl]
    decide +kernel
  rcases he : (Pack.unpack brokenPack "staging" ⟨none, .ask, "out", ⟨.off, false⟩, true⟩ .defaults
    []).exec oldWorld with ⟨result, w'⟩
  rw [he] at hfails
  obtain ⟨error, rfl⟩ := failsInConfig_iff.1 hfails
  have hfree : oldWorld.tree.LinkFree [] := FileTree.linkFree_of_nodes (by simp [oldWorld]) []
  have hlead : ∀ name : String, Path.isAbsolute name = false → Path.names name = [name] →
      name ≠ ".." → oldWorld.tree.LeadsTo name [name] := by
    intro name hrel hnames hup
    rw [FileTree.LeadsTo, FileTree.start, hrel, hnames]
    exact .descend hfree List.nil_prefix (by simpa using hup.symm)
  have hout := hlead "out" (by decide +kernel) (by decide +kernel) (by decide)
  have hstaging := hlead "staging" (by decide +kernel) (by decide +kernel) (by decide)
  refine ⟨_, w', rfl, ?_⟩
  apply early_failures_keep_output.2 brokenPack "staging" _ _ [] _ _ _ ["out"] (by simp) hout _ he
    (by simp) (by simp) (by simp) ["out", "a.txt"] (by decide) (by decide)
  intro entries hentries name hname
  exact Pack.staysOff_of_apart hfree hstaging (by decide +kernel)
    (Archive.staysInside_of_isSafeName (Archive.entries_safe hentries name hname)) (by decide)
    (by decide)

/-- Staging above the output directory is not inside it, but what is staged is. -/
theorem staging_above_output_changes_it :
    ∃ e w', (Pack.unpack brokenPack "staging" ⟨none, .ask, "staging/frame", ⟨.off, false⟩, true⟩ .defaults
        []).exec oldWorld = (.error e, w') ∧
      (∃ error, e = .config error) ∧
      oldWorld.tree.LeadsTo "staging" ["staging"] ∧
      oldWorld.tree.LeadsTo "staging/frame" ["staging", "frame"] ∧
      ¬ ["staging", "frame"] <+: ["staging"] ∧
      oldWorld.tree.node? ["staging", "frame", "a.txt"] = none ∧
      w'.tree.content? ["staging", "frame", "a.txt"] = some "text\n".toUTF8 := by
  have hrun : failsInConfig ((Pack.unpack brokenPack "staging"
        ⟨none, .ask, "staging/frame", ⟨.off, false⟩, true⟩ .defaults []).exec oldWorld).1 = true ∧
      ((Pack.unpack brokenPack "staging" ⟨none, .ask, "staging/frame", ⟨.off, false⟩, true⟩ .defaults
        []).exec oldWorld).2.tree.content? ["staging", "frame", "a.txt"] =
          some "text\n".toUTF8 := by
    rw [Pack.unpack_of_entries brokenPack_read rfl]
    decide +kernel
  rcases he : (Pack.unpack brokenPack "staging" ⟨none, .ask, "staging/frame", ⟨.off, false⟩, true⟩
    .defaults []).exec oldWorld with ⟨result, w'⟩
  rw [he] at hrun
  obtain ⟨error, rfl⟩ := failsInConfig_iff.1 hrun.1
  have hfree : oldWorld.tree.LinkFree [] := FileTree.linkFree_of_nodes (by simp [oldWorld]) []
  have hstaging : Path.names "staging" = ["staging"] := by decide +kernel
  have hout : Path.names "staging/frame" = ["staging", "frame"] := by decide +kernel
  refine ⟨_, w', rfl, ⟨error, rfl⟩, ?_, ?_, by decide, by decide +kernel, hrun.2⟩
  · rw [FileTree.LeadsTo, hstaging]
    exact .descend hfree List.nil_prefix (by decide)
  · rw [FileTree.LeadsTo, hout]
    exact .descend hfree List.nil_prefix (by decide)

end ConfigPack
