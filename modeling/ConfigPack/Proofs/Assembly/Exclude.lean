import ConfigPack.Proofs.Assembly.Writing

/-!
# Paths that are left out

Whether a path is left out is decided by its text.  So no candidate is written under a text that is
left out, but the file that such a path names is safe only as long as no candidate that is taken
names it by another text, as with a dot or a second slash in it.
-/

namespace ConfigPack

variable {σ : Type}

/-- The listeners of a bus leave the writing of files alone. -/
def Bus.LeavesWriting (bus : Bus σ) : Prop :=
  ∀ l ∈ bus, (∀ draft, l.onWrite draft = pure draft) ∧ ∀ draft, l.onMerge draft = pure draft

/-- Listeners that leave writing alone may as well be away from a write. -/
lemma Output.write_of_leavesWriting {bus : Bus σ} (h : bus.LeavesWriting)
    (settings : WriteSettings) (path : String) (data : ByteArray) :
    Output.write settings bus path data = Output.write settings [] path data := by
  have hwrite : ∀ draft, bus.emitWrite draft = pure draft :=
    Bus.emit_of_pure fun l hl => (h l hl).1
  have hmerge : ∀ draft, bus.emitMerge draft = pure draft :=
    Bus.emit_of_pure fun l hl => (h l hl).2
  simp only [Output.write, Output.finish, hwrite, hmerge, Output.emitWrite_nil,
    Output.emitMerge_nil]

namespace Assembly

variable {environment : Environment} {settings : AssemblySettings}

/-- So they may from all writes. -/
lemma writeAll_of_leavesWriting {bus : Bus σ} (h : bus.LeavesWriting)
    (items : List (Job × ByteArray)) :
    writeAll settings bus items = writeAll settings [] items := by
  have hone : writeOne settings bus = writeOne settings [] := by
    funext item
    simp only [writeOne, Output.write_of_leavesWriting h]
  rw [writeAll, writeAll, hone]

/-- Two paths name one entry below a directory. -/
def SameEntry (tree : FileTree) (output path path' : String) : Prop :=
  ∃ place, tree.EntryOf (Path.join output path) place ∧ tree.EntryOf (Path.join output path') place

/-- Relative paths with the same names name one entry: dots and further slashes say nothing. -/
lemma entryOf_respelled {tree : FileTree} {output path path' : String} {place : Place}
    (hrel : Path.isAbsolute path = false) (hrel' : Path.isAbsolute path' = false)
    (hnames : Path.names path = Path.names path')
    (h : tree.EntryOf (Path.join output path) place) :
    tree.EntryOf (Path.join output path') place := by
  obtain ⟨above, name, directory, hpath, hup, hleads, hplace⟩ := h
  refine ⟨above, name, directory, ?_, hup, ?_, hplace⟩
  · rw [← hpath, Path.names_join hrel, Path.names_join hrel', hnames]
  · rw [FileTree.start, Path.isAbsolute_join hrel']
    rw [FileTree.start, Path.isAbsolute_join hrel] at hleads
    exact hleads

/-- A candidate with a path that is left out is never taken.  Whatever becomes of an assembly, the
file that such a path names is neither made nor changed as long as no candidate that is taken names
it by another text; and when one does and the assembly succeeds, the file is written. -/
theorem excluded_kept_unless_respelled {bus : Bus σ} (hbus : bus.LeavesWriting) {path : String}
    (hout : environment.isExcluded path = true) {result : Except AssemblyError Report}
    {w w' : World σ} (h : (run environment settings bus).exec w = (result, w')) :
    (∀ job ∈ chosen environment settings.frame bus w, job.candidate.path ≠ path) ∧
      ((∀ job ∈ chosen environment settings.frame bus w,
          ¬ SameEntry w.tree settings.output job.candidate.path path) →
        ∀ place, w.tree.EntryOf (Path.join settings.output path) place →
          w.tree.Keeps w'.tree place) ∧
      ∀ job ∈ chosen environment settings.frame bus w, ∀ place,
        w.tree.EntryOf (Path.join settings.output path) place →
        w.tree.EntryOf (Path.join settings.output job.candidate.path) place →
        settings.write.dryRun = false → (∃ report, result = .ok report) →
        ∃ writer ∈ chosen environment settings.frame bus w, ∃ data before content,
          w.tree.EntryOf (Path.join settings.output writer.candidate.path) place ∧
            render w.tree environment.tokens writer = .ok data ∧
            combined settings.write.mode (.ofPath writer.candidate.path) before data =
              some content ∧
            w'.tree.content? place = some content := by
  refine ⟨fun job hjob e => ?_, fun hother place hplace => ?_, ?_⟩
  · rw [← e, not_excluded_of_chosen hjob] at hout
    cases hout
  · rcases run_phases h with ⟨hsame, _⟩ | ⟨texts, written, w₁, w₂, hrender, h₁, h₂, hwrite, _⟩
    · rw [hsame]
      exact .refl _ _
    rw [writeAll_of_leavesWriting hbus] at hwrite
    rw [h₂, ← h₁]
    have ht : w.tree.Evolves w₁.tree := h₁ ▸ .refl _
    apply (writeAll_keeps ht hwrite).2 place
    intro item hitem he
    exact hother item.1 (List.of_mem_zip hitem).1 ⟨place, he, hplace⟩
  · rintro job hjob place _ he hreal ⟨report, hok⟩
    rcases run_phases h with ⟨_, hfail⟩ |
      ⟨texts, written, w₁, w₂, hrender, h₁, h₂, hwrite, hfiles, _⟩
    · exact absurd hok (hfail report)
    rw [writeAll_of_leavesWriting hbus] at hwrite
    obtain ⟨files, rfl⟩ := hfiles report hok
    obtain ⟨htheirs, hall⟩ := render_of_mem_zip hrender
    obtain ⟨data, hdata⟩ := hall job hjob
    have ht : w.tree.Evolves w₁.tree := h₁ ▸ .refl _
    obtain ⟨item, hitem, hentry, before, content, hcombined, hheld⟩ :=
      writeAll_writes ht hreal hwrite ⟨_, hdata, he⟩
    refine ⟨item.1, (List.of_mem_zip hitem).1, item.2, before, content, hentry,
      htheirs item hitem, hcombined, ?_⟩
    rw [h₂, hheld]

/-- A frame with one file. -/
def draftTree : FileTree :=
  ⟨[(["frame"], .directory), (["frame", "draft.md"], .file "text\n".toUTF8 FileTree.newFileMode)],
    []⟩

/-- An environment that leaves that file out. -/
def draftEnvironment : Environment := ⟨.empty, .ofList [("draft.md", true)], .empty⟩

/-- A listener that puts a dot in front of the paths of candidates. -/
def dotted : Listener Unit where
  onCandidate candidate := pure { candidate with path := "./" ++ candidate.path }

/-- A candidate whose path is spelled with a dot is not excluded and is written. -/
theorem respelled_draft_is_written :
    ∃ report w',
      (run draftEnvironment ⟨some "frame", "out", ⟨.off, false⟩, true⟩ [dotted]).exec
        (⟨⟨#[], ()⟩, draftTree, .calm⟩ : World Unit) = (.ok report, w') ∧
      draftTree.content? ["out", "draft.md"] = none ∧
      ∃ content, w'.tree.content? ["out", "draft.md"] = some content := by
  have hrun : ((run draftEnvironment ⟨some "frame", "out", ⟨.off, false⟩, true⟩ [dotted]).exec
      (⟨⟨#[], ()⟩, draftTree, .calm⟩ : World Unit)).1.toOption.isSome = true := by decide +kernel
  rcases he : (run draftEnvironment ⟨some "frame", "out", ⟨.off, false⟩, true⟩ [dotted]).exec
    (⟨⟨#[], ()⟩, draftTree, .calm⟩ : World Unit) with ⟨e | report, w'⟩
  · rw [he] at hrun
    cases hrun
  have hbus : Bus.LeavesWriting [dotted] := by
    intro l hl
    cases List.mem_singleton.1 hl
    exact ⟨fun _ => rfl, fun _ => rfl⟩
  have hout : draftEnvironment.isExcluded "draft.md" = true := by decide +kernel
  obtain ⟨_, _, hwritten⟩ := excluded_kept_unless_respelled hbus hout he
  have hchosen : (chosen draftEnvironment (some "frame") [dotted]
      (⟨⟨#[], ()⟩, draftTree, .calm⟩ : World Unit)).map (·.candidate.path) = ["./draft.md"] := by
    decide +kernel
  obtain ⟨job, hjob, hpath⟩ := List.mem_map.1 (hchosen ▸ List.mem_singleton_self "./draft.md")
  have hentry : draftTree.EntryOf (Path.join "out" "draft.md") ["out", "draft.md"] := by
    refine ⟨["out"], "draft.md", ["out"], by decide +kernel, by decide, ?_, rfl⟩
    exact .descend (FileTree.linkFree_of_nodes (by simp [draftTree]) []) List.nil_prefix (by decide)
  have hdotted : draftTree.EntryOf (Path.join "out" job.candidate.path) ["out", "draft.md"] := by
    rw [hpath]
    exact entryOf_respelled (by decide +kernel) (by decide +kernel) (by decide +kernel) hentry
  obtain ⟨_, _, _, _, content, _, _, _, hheld⟩ :=
    hwritten job hjob _ hentry hdotted rfl ⟨report, rfl⟩
  exact ⟨report, w', rfl, by decide +kernel, content, hheld⟩

end Assembly

end ConfigPack
