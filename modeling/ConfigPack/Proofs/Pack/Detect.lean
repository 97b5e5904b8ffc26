import ConfigPack.Proofs.Archive.Entry
import ConfigPack.Proofs.FileTree.Again
import ConfigPack.Proofs.Pack.Refine
import Mathlib.Data.String.Basic

/-!
# Detected manifests

An archive is a pack when the bytes of its manifest can be read, those that are no text replaced.
Unpacking reads the manifest again from the file that it was staged to, and there all bytes must be
text.  So both agree on the manifest of a pack exactly when it is text; otherwise the pack is
detected and cannot be installed.
-/

namespace ConfigPack

variable {σ : Type}

namespace Pack

variable {t t₁ t₂ : FileTree} {place : Place} {data data' : ByteArray}

/-! ## Files that stay -/

/-- The file at a place has the bytes that were put there; the links of a tree from before are the
same and its directories are there. -/
structure Settled (t : FileTree) (place : Place) (data : ByteArray) (t' : FileTree) : Prop where
  sameLinks : t.SameLinks t'
  directory : ∀ p, t.node? p = some .directory → t'.node? p = some .directory
  file : ∃ mode, t'.node? place = some (.file data mode)

/-- A file that is written is settled at the place its path leads to. -/
lemma settled_of_write {path : String} (h : t.write path data = .ok t₁)
    (hplace : t.LeadsTo path place) : Settled t place data t₁ := by
  obtain ⟨goal, mode, hleads, hroot, hdirectory, hlink, rfl⟩ := FileTree.write_ok h
  cases hleads.unique hplace
  refine ⟨.set_file hroot hlink data mode, fun p hp => ?_, mode, ?_⟩
  · rw [FileTree.node?_set hroot, if_neg, hp]
    rintro rfl
    exact hdirectory hp
  · rw [FileTree.node?_set hroot, if_pos rfl]

/-- A file that is settled stays so when directories are made. -/
lemma Settled.grows {P : Place → Prop} (h : Settled t place data t₁) (hgrows : t₁.Grows P t₂) :
    Settled t place data t₂ := by
  obtain ⟨mode, hfile⟩ := h.file
  have hkept : ∀ p node, t₁.node? p = some node → t₂.node? p = some node := by
    intro p node hp
    rcases hgrows.node p with e | ⟨_, hvacant, _⟩
    · rw [e, hp]
    · rw [hp] at hvacant
      cases hvacant
  exact ⟨h.sameLinks.trans hgrows.sameLinks, fun p hp => hkept p _ (h.directory p hp), mode,
    hkept _ _ hfile⟩

/-- A file stays when another is written. -/
lemma Settled.write {path : String} (h : Settled t place data t₁)
    (hwrite : t₁.write path data' = .ok t₂) (hother : ¬ t₁.LeadsTo path place) :
    Settled t place data t₂ := by
  obtain ⟨goal, mode, hleads, hroot, hdirectory, hlink, rfl⟩ := FileTree.write_ok hwrite
  obtain ⟨mode', hfile⟩ := h.file
  refine ⟨h.sameLinks.trans (.set_file hroot hlink data' mode), fun p hp => ?_, mode', ?_⟩
  · rw [FileTree.node?_set hroot, if_neg, h.directory p hp]
    rintro rfl
    exact hdirectory (h.directory _ hp)
  · rw [FileTree.node?_set hroot, if_neg, hfile]
    rintro rfl
    exact hother hleads

/-- A file stays when an entry is staged, however far that comes, unless the path of the entry is
written to and leads to it. -/
lemma stageEntry_settled {staging : String} {e : String × ByteArray}
    (hother : Archive.isSafeName e.1 = true → ∀ t₁ t₂, Settled t place data t₁ →
      t₁.write (Path.join staging e.1) e.2 = .ok t₂ →
      ¬ t₁.LeadsTo (Path.join staging e.1) place) :
    Work.Preserves (Settled t place data) (stageEntry staging e : Work σ PackError Unit) :=
  stageEntry_preserves (fun t₁ above h _ => h.grows (t₁.makeDirectories_grows above))
    fun hsafe _ _ h hwrite => h.write hwrite (hother hsafe _ _ h hwrite)

/-! ## The staged manifest -/

section

variable {staging : String} {base : Place}

/-- A path below a place without links leads to its names there. -/
lemma leadsTo_join_iff (hbase : t.LeadsTo staging base) (hfree : t.LinkFree base) {name : String}
    {goal : Place} (hname : Path.staysInside name = true) :
    t.LeadsTo (Path.join staging name) goal ↔ goal = base ++ Path.names name := by
  obtain ⟨hrel, hup⟩ := Path.staysInside_iff.1 hname
  rw [FileTree.LeadsTo, Path.names_join hrel, FileTree.start_eq (Path.isAbsolute_join hrel)]
  constructor
  · intro h
    obtain ⟨mid, hfront, hrest⟩ := h.split rfl
    cases hfront.unique hbase
    exact hrest.of_linkFree hfree List.prefix_rfl hup
  · rintro rfl
    exact hbase.append (.descend hfree List.prefix_rfl hup)

/-- No entry behind the manifest is written to its place: one with the same names ends with a dot,
and nothing is written there. -/
lemma not_leadsTo_of_later (hbase : t.LeadsTo staging base) (hfree : t.LinkFree base)
    {name : String} (hname : Path.staysInside name = true) (hlater : manifestName < name)
    (h : Settled t (base ++ [manifestName]) data t₁)
    (hwrite : t₁.write (Path.join staging name) data' = .ok t₂) :
    ¬ t₁.LeadsTo (Path.join staging name) (base ++ [manifestName]) := by
  intro hleads
  have hbase₁ := h.sameLinks.leadsTo hbase
  obtain ⟨hrel, _⟩ := Path.staysInside_iff.1 hname
  have hnames : Path.names name = [manifestName] := (List.append_cancel_left
    ((leadsTo_join_iff hbase₁ (h.sameLinks.linkFree hfree) hname).1 hleads)).symm
  obtain ⟨mode, hfile⟩ := h.file
  rw [FileTree.LeadsTo, ← FileTree.start_eq (Path.isAbsolute_join hrel)] at hbase₁
  have hlast := FileTree.getLast?_of_write (by rw [Path.names_join hrel, hnames]) (by decide) hbase₁
    hfile hwrite
  obtain ⟨front, hsegments, _⟩ := Path.segments_join staging hrel
  rw [hsegments, List.getLast?_append_of_ne_nil _ (Path.segments_ne_nil name)] at hlast
  rw [String.lt_iff_toList_lt] at hlater
  rcases Path.eq_or_dot hrel hnames hlast with rfl | hdot
  · exact lt_irrefl _ hlater
  · obtain ⟨rest, hrest⟩ := List.head?_eq_some_iff.1 hdot
    rw [hrest] at hlater
    exact absurd hlater (by simp [manifestName, List.cons_lt_cons_iff])

/-- So the manifest stays while the entries behind it are staged. -/
lemma stageRest_settled {back : List (String × ByteArray)} (hbase : t.LeadsTo staging base)
    (hfree : t.LinkFree base) (hlater : ∀ e ∈ back, manifestName < e.1) :
    Work.Preserves (Settled t (base ++ [manifestName]) data)
      (back.forM fun entry =>
        Work.within Failure.pack (stageEntry staging entry) : Work σ Failure PUnit) :=
  .forM fun e he => .within _ <| stageEntry_settled fun hsafe _ _ hheld hwritten =>
    not_leadsTo_of_later hbase hfree (Archive.staysInside_of_isSafeName hsafe) (hlater e he)
      hheld hwritten

/-- When all entries are staged, the manifest is read back from its file. -/
lemma read_staged {entries : Dict ByteArray} {content : ByteArray} {u : Unit} {w w' : World σ}
    (hbase : w.tree.LeadsTo staging base) (hfree : w.tree.LinkFree base)
    (hsafe : ∀ name ∈ entries.keys, Archive.isSafeName name = true)
    (hmanifest : (manifestName, content) ∈ entries.entries)
    (h : (stageAll staging entries).exec w = (.ok u, w')) :
    w'.tree.read (Path.join staging manifestName) = .ok content := by
  have hkeys : ∀ e ∈ entries.entries, Archive.isSafeName e.1 = true :=
    fun e he => hsafe e.1 (List.mem_map_of_mem he)
  obtain ⟨front, back, hentries⟩ := List.append_of_mem hmanifest
  have hlater : ∀ e ∈ back, manifestName < e.1 := by
    have hsorted := entries.sorted
    rw [hentries] at hsorted
    exact fun e he => List.rel_of_pairwise_cons (List.pairwise_append.1 hsorted).2.1 he
  rw [hentries] at hkeys
  rw [stageAll, hentries] at h
  obtain ⟨w₁, hfront, h⟩ := Work.exec_forM_append_ok h
  rw [Work.exec_forM_cons] at h
  rcases hone : (Work.within Failure.pack (stageEntry staging (manifestName, content))).exec w₁ with
    ⟨e | _, w₂⟩
  all_goals rw [hone] at h
  · cases h
  change Work.exec (back.forM _) w₂ = _ at h
  -- the manifest is written where the links of the tree are still the same
  rw [Work.exec_within, Prod.mk.injEq, Result.mapError_eq_ok] at hone
  have hstaged : (stageEntry staging (manifestName, content)).exec w₁ = (.ok (), w₂) :=
    Prod.ext hone.1 hone.2
  have hname : Archive.isSafeName manifestName = true := hkeys (manifestName, content) (by simp)
  rw [stageEntry_eq hname] at hstaged
  obtain ⟨_, w₃, hmake, hwrite⟩ := Work.exec_bind_ok.1 hstaged
  have hlinks : w.tree.SameLinks w₃.tree := by
    have hbefore := (stageEntries_staged staging front w).sameLinks
    have hmade := (makeAbove_staged List.mem_cons_self w₁
      (.refl w₁.tree [Path.join staging manifestName])).sameLinks
    rw [hfront] at hbefore
    rw [hmake] at hmade
    exact hbefore.trans hmade
  obtain ⟨hwrite, _⟩ := Work.exec_change_ok hwrite
  have hbase₃ := hlinks.leadsTo hbase
  have hfree₃ := hlinks.linkFree hfree
  have hplace : w₃.tree.LeadsTo (Path.join staging manifestName) (base ++ [manifestName]) :=
    (leadsTo_join_iff hbase₃ hfree₃ isFilePath_manifest.staysInside).2 (by rw [names_manifest])
  -- and stays while the entries behind it are staged
  have hsettled := stageRest_settled hbase₃ hfree₃ hlater w₂ (settled_of_write hwrite hplace)
  rw [h] at hsettled
  obtain ⟨mode, hfile⟩ := hsettled.file
  have hends := isFilePath_manifest.endsIn_names (names_manifest.trans (List.nil_append _).symm)
  exact FileTree.read_again (hends.join isFilePath_manifest.isAbsolute)
    ⟨by decide, by decide, by decide⟩ hwrite hplace hsettled.sameLinks.workingDirectory
    hsettled.directory (fun p target => (hsettled.sameLinks.link_iff p target).2) hfile

/-- Entries with safe names fail to be staged only because of the files. -/
lemma stageAll_error {entries : Dict ByteArray} {e : Failure} {w w' : World σ}
    (hsafe : ∀ name ∈ entries.keys, Archive.isSafeName name = true)
    (h : (stageAll staging entries).exec w = (.error e, w')) :
    ∃ path error, e = .pack (.io path error) := by
  obtain ⟨⟨name, data⟩, he, before, after, hone⟩ := Work.exec_forM_error h
  rw [Work.exec_within, Prod.mk.injEq, Result.mapError_eq_error] at hone
  obtain ⟨⟨failure, hfailure, rfl⟩, _⟩ := hone
  have hstage : (stageEntry staging (name, data)).exec before = (.error failure, _) :=
    Prod.ext hfailure rfl
  rw [stageEntry_eq (hsafe name (List.mem_map_of_mem he))] at hstage
  rcases Work.exec_bind_error.1 hstage with hmake | ⟨_, w₁, _, hwrite⟩
  · rw [makeAbove] at hmake
    split at hmake
    next above _ =>
      rw [Work.exec_changePartly, Prod.mk.injEq, Result.mapError_eq_error] at hmake
      obtain ⟨⟨error, _, rfl⟩, _⟩ := hmake
      exact ⟨above, error, rfl⟩
    next => cases hmake
  · rw [Work.exec_change] at hwrite
    split at hwrite
    · cases hwrite
    next error _ =>
      cases hwrite
      exact ⟨_, error, rfl⟩

end

/-! ## Loading it -/

/-- The text of a file that is read, if its bytes are text. -/
lemma readText_of_read {path : String} {content : ByteArray} (h : t.read path = .ok content) :
    t.readText path = (Utf8.decode content).mapError fun _ => .notText := by
  obtain ⟨place, hlocate, hread⟩ := Result.bind_eq_ok.1 h
  simp only [FileTree.readText, hlocate, bind, Except.bind, FileTree.readTextAt, hread]
  cases Utf8.decode content <;> rfl

/-- A text that is one is not changed by a lossy decoding. -/
lemma decodeLossy_of_decode {content : ByteArray} {text : String}
    (h : Utf8.decode content = .ok text) : Utf8.decodeLossy content = text := by
  simp only [Utf8.decode] at h
  simp only [Utf8.decodeLossy]
  cases hdecoded : String.fromUTF8? content with
  | none =>
    rw [hdecoded] at h
    cases h
  | some decoded =>
    rw [hdecoded] at h
    cases h
    rfl

/-- A manifest is read alike by paths with one extension. -/
lemma parse_congr {path path' text : String} {manifest : Manifest}
    (hextension : Path.lowerExtension path = Path.lowerExtension path')
    (h : Manifest.parse path text = .ok manifest) : Manifest.parse path' text = .ok manifest := by
  obtain ⟨document, hdocument, hmanifest⟩ := Result.bind_eq_ok.1 h
  refine Result.bind_eq_ok.2 ⟨document, ?_, hmanifest⟩
  rw [Document.parse, hextension] at hdocument
  rw [Document.parse]
  split at hdocument
  all_goals first | (rw [Result.mapError_eq_ok] at hdocument ⊢; exact hdocument) | cases hdocument

/-- The manifest of an archive is that in the text of its entry, what is no text in it replaced. -/
lemma manifest_ok {entries : Dict ByteArray} {manifest : Manifest}
    (hentries : Archive.entries data = .ok entries) (h : Pack.manifest data = .ok manifest) :
    ∃ content, (manifestName, content) ∈ entries.entries ∧
      Manifest.parse manifestName (Utf8.decodeLossy content) = .ok manifest := by
  obtain ⟨entry, hentry, h⟩ := Result.bind_eq_ok.1 h
  rw [Result.mapError_eq_ok, Archive.entry?_eq_find? hentries (by decide)] at hentry
  cases hentry
  cases hfind : entries.find? manifestName with
  | none =>
    rw [hfind] at h
    cases h
  | some content =>
    rw [hfind] at h
    exact ⟨content, Dict.find?_eq_some_iff.1 hfind, Result.mapError_eq_ok.1 h⟩

/-- What is loaded from the file of a staged manifest. -/
lemma load_staged {staging : String} {content : ByteArray} {manifest : Manifest}
    (hread : t.read (Path.join staging manifestName) = .ok content)
    (hparse : Manifest.parse manifestName (Utf8.decodeLossy content) = .ok manifest) :
    Manifest.load t (Path.join staging manifestName) =
      match Utf8.decode content with
      | .ok _ => .ok manifest
      | .error _ => .error (.io (Path.join staging manifestName) .notText) := by
  rw [Manifest.load, Manifest.loadDocument, readText_of_read hread]
  cases hdecode : Utf8.decode content with
  | error fault => rfl
  | ok text =>
    rw [decodeLossy_of_decode hdecode] at hparse
    exact parse_congr (lowerExtension_manifest staging) hparse

end Pack

/-- When a manifest is detected in an archive and the listeners leave its entries alone, unpacking
goes on to stage all entries and fails there only because of the files.  Once they are staged, just
that manifest is installed, provided that its bytes are text; otherwise unpacking fails to read it,
although it was detected. -/
theorem detected_manifest_is_installed {data : ByteArray} {entries : Dict ByteArray}
    {manifest : Manifest} {staging : String} {base : Place} {settings : UnpackSettings}
    {prompter : Prompter σ} {bus : Bus σ} {w : World σ} {host : σ}
    (hentries : Archive.entries data = .ok entries)
    (hdetected : Pack.manifest data = .ok manifest)
    (hchecksum : ∀ wanted, settings.checksum = some wanted → verifyChecksum data wanted = .ok ())
    (hheard : (bus.emitExtract entries).run.run w.journal.host = (.ok entries, host))
    (hbase : w.tree.LeadsTo staging base) (hfree : w.tree.LinkFree base) :
    ∃ content w₁, (Pack.manifestName, content) ∈ entries.entries ∧ w₁.tree = w.tree ∧
      w₁.journal.host = host ∧
      let unpacked := (Pack.unpack data staging settings prompter bus).exec w
      (∀ e w₂, (Pack.stageAll staging entries).exec w₁ = (.error e, w₂) →
        unpacked = (.error e, w₂) ∧ ∃ path error, e = .pack (.io path error)) ∧
      ∀ w₂, (Pack.stageAll staging entries).exec w₁ = (.ok (), w₂) →
        (∀ text, Utf8.decode content = .ok text →
          ∃ w₃, Pack.SameButLog w₂ w₃ ∧
            unpacked = (Unpacked.installed <$> Install.run manifest
              (some (Path.join staging Pack.fuelDirectory))
              ⟨some (Path.join staging Pack.frameDirectory), settings.output, settings.write,
                settings.parallel⟩ prompter bus).exec w₃) ∧
        ∀ fault, Utf8.decode content = .error fault →
          unpacked = (.error (.config (.io (Path.join staging Pack.manifestName) .notText)), w₂) := by
  obtain ⟨content, hcontent, hparse⟩ := Pack.manifest_ok hentries hdetected
  have hsafe := Archive.entries_safe hentries
  obtain ⟨w₀, hcheck, hsame₀⟩ := Pack.checkData_ok hchecksum w
  rw [← hsame₀.host] at hheard
  obtain ⟨w₁, hread, htree₁, hhost₁, -⟩ := Pack.readEntries_heard hentries hheard
  have htree := htree₁.trans hsame₀.tree
  refine ⟨content, w₁, hcontent, htree, hhost₁, ?_⟩
  have hcontains : entries.contains Pack.manifestName = true :=
    Dict.contains_iff.2 (Dict.mem_keys.2 ⟨content, hcontent⟩)
  have hunpack : (Pack.unpack data staging settings prompter bus).exec w =
      (Pack.stageAll staging entries >>= fun _ =>
        Unpacked.installed <$> Pack.installStaged staging settings prompter bus).exec w₁ := by
    rw [map_eq_pure_bind]
    simp only [Pack.unpack_eq, Work.exec_bind, hcheck, hread, Pack.unpackEntries, if_pos hcontains,
      Pack.stageAll]
  refine ⟨fun e w₂ hstage => ⟨?_, Pack.stageAll_error hsafe hstage⟩, fun w₂ hstage => ?_⟩
  · rw [hunpack, Work.exec_bind, hstage]
  have hread := Pack.read_staged (by rwa [htree]) (by rwa [htree]) hsafe hcontent hstage
  have hload := Pack.load_staged hread hparse
  have hgoes : (Pack.unpack data staging settings prompter bus).exec w =
      (Unpacked.installed <$> Pack.installStaged staging settings prompter bus).exec w₂ := by
    rw [hunpack, Work.exec_bind, hstage]
  refine ⟨fun text htext => ?_, fun fault hfault => ?_⟩
  · rw [htext] at hload
    obtain ⟨w₃, hsame₃, hinstalled⟩ := Pack.installStaged_exec hload
    refine ⟨w₃, hsame₃, ?_⟩
    rw [hgoes, Work.exec_map, Work.exec_map, hinstalled]
  · rw [hfault] at hload
    rw [hgoes, Work.exec_map, Pack.installStaged, Work.exec_bind, Work.exec_look, hload]
    rfl

/-- The entries of a pack with a comment in its manifest that is no text. -/
def damagedEntries : Dict ByteArray :=
  ⟨[("rocket.config.json5", ⟨#[0x7b, 0x7d, 0x2f, 0x2f, 0xff]⟩)], by decide⟩

/-- The entries of the damaged pack are read back. -/
lemma damaged_entries :
    Archive.entries (Archive.ofEntries damagedEntries) = .ok damagedEntries := by
  refine Archive.entries_ofEntries (Archive.returned_of_fits ⟨by decide, by decide, by decide⟩) ?_
    (by decide)
  intro name hname
  rw [List.mem_singleton.1 hname]
  exact Pack.isFilePath_manifest.isInside

/-- Its manifest is found, since what is no text is replaced. -/
lemma damaged_manifest :
    Pack.manifest (Archive.ofEntries damagedEntries) = .ok Pack.emptyManifest := by
  have hentry : Archive.entry? (Archive.ofEntries damagedEntries) Pack.manifestName =
      .ok (some ⟨#[0x7b, 0x7d, 0x2f, 0x2f, 0xff]⟩) :=
    Archive.entry?_eq_find? damaged_entries (by decide)
  have htext : Utf8.decodeLossy ⟨#[0x7b, 0x7d, 0x2f, 0x2f, 0xff]⟩ = "{}//\ufffd" := by
    decide +kernel
  have hextension : Path.lowerExtension Pack.manifestName = "json5" := by decide +kernel
  have hparse : Json5.parse "{}//\ufffd" = .ok (.object []) := by rfl
  have hdocument : Document.parse Pack.manifestName "{}//\ufffd" = .ok (.object []) := by
    simp only [Document.parse, hextension, hparse, Except.mapError]
  have hmanifest : Manifest.parse Pack.manifestName "{}//\ufffd" =
      .ok Pack.emptyManifest :=
    Result.bind_eq_ok.2 ⟨_, hdocument, Result.mapError_eq_ok.2 Pack.ofJson_empty⟩
  refine Result.bind_eq_ok.2 ⟨_, Result.mapError_eq_ok.2 hentry, Result.mapError_eq_ok.2 ?_⟩
  rw [htext]
  exact hmanifest

/-- The damaged pack is detected, and unpacking it fails when its staged manifest is loaded. -/
theorem damaged_manifest_is_detected :
    ∃ manifest w', Pack.manifest (Archive.ofEntries damagedEntries) = .ok manifest ∧
      (Pack.unpack (Archive.ofEntries damagedEntries) "staging" ⟨none, .ask, "out", ⟨.off, false⟩, true⟩
        Prompter.defaults []).exec Pack.plainWorld =
          (.error (.config (.io (Path.join "staging" Pack.manifestName) .notText)), w') := by
  have hfree := Pack.plainWorld_linkFree
  have hbase : Pack.plainWorld.tree.LeadsTo "staging" ["staging"] := by
    have hnames : Path.names "staging" = ["staging"] := by decide +kernel
    rw [FileTree.LeadsTo, hnames]
    exact .descend hfree List.nil_prefix (by decide)
  have hchecksum : ∀ wanted,
      (⟨none, .ask, "out", ⟨.off, false⟩, true⟩ : UnpackSettings).checksum = some wanted →
      verifyChecksum (Archive.ofEntries damagedEntries) wanted = .ok () := by simp
  have hheard : (Bus.emitExtract ([] : Bus Unit) damagedEntries).run.run Pack.plainWorld.journal.host =
      (.ok damagedEntries, Pack.plainWorld.journal.host) := rfl
  obtain ⟨content, w₁, hcontent, htree, _, _, hstaged⟩ := detected_manifest_is_installed
    damaged_entries damaged_manifest hchecksum hheard hbase
      fun p target _ => hfree p target List.nil_prefix
  have honly : ∀ e ∈ damagedEntries.entries, e = (Pack.manifestName, _) :=
    fun e he => List.mem_singleton.1 he
  have hstageable : Pack.Stageable "staging" damagedEntries.entries := by
    refine ⟨fun e he => ?_, fun e he => ?_, fun e he => ?_, fun e he e' he' _ => ?_⟩
    · rw [honly e he]
      exact Pack.isFilePath_manifest
    · rw [honly e he]
      decide
    · rw [honly e he]
      decide +kernel
    · rw [honly e he, honly e' he']
      exact ⟨rfl, rfl⟩
  have hlayout : Pack.Layout Pack.plainWorld.tree ["staging"] [] w₁.tree := by
    rw [htree]
    exact Pack.plainWorld_private.layout
  obtain ⟨t', hstage, _⟩ := Pack.stageEntries_ok Pack.plainWorld_private hstageable
    (List.nil_append _).symm hlayout
  obtain ⟨_, hfault⟩ := hstaged _ hstage
  cases honly _ hcontent
  have hdecode : Utf8.decode ⟨#[0x7b, 0x7d, 0x2f, 0x2f, 0xff]⟩ = .error ⟨4, some 1⟩ := by
    decide +kernel
  exact ⟨_, _, damaged_manifest, hfault _ hdecode⟩

end ConfigPack
