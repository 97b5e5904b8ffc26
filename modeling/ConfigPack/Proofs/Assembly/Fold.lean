import ConfigPack.Proofs.Assembly.Writing

/-!
# An assembly is a fold for each destination

With no listeners every candidate that is not left out is written, in order.  What a destination
holds in the end is what it held before, combined one after the other with the contents of the
candidates that go there; candidates for other destinations have no effect on it.  All contents are
rendered in the tree that the assembly started from.
-/

namespace ConfigPack.Assembly

variable {σ : Type} {t : FileTree} {environment : Environment} {settings : AssemblySettings}

/-- The paths and the contents of the candidates that are not left out. -/
def rendered (tree : FileTree) (environment : Environment) (frame : Option String) :
    Except AssemblyError (List (String × ByteArray)) := do
  let jobs ← candidates tree environment frame
  let kept := jobs.filter fun job => !environment.isExcluded job.candidate.path
  kept.mapM fun job => return (job.candidate.path, ← render tree environment.tokens job)

/-- What a file holds after contents were written to it one after the other, each under its path;
none when two of them cannot be merged. -/
def successive (mode : MergeMode) (items : List (String × ByteArray)) (before : Option ByteArray) :
    Option (Option ByteArray) :=
  items.foldlM (fun held item => (combined mode (.ofPath item.1) held item.2).map some) before

/-- The items for one destination, which paths name in several ways. -/
def itemsFor (names : List String) (items : List (String × ByteArray)) :
    List (String × ByteArray) :=
  items.filter fun item => Path.names item.1 = names

/-- An item with the names comes first. -/
lemma itemsFor_cons_same {names : List String} {item : String × ByteArray}
    (items : List (String × ByteArray)) (h : Path.names item.1 = names) :
    itemsFor names (item :: items) = item :: itemsFor names items := by
  simp [itemsFor, h]

/-- One with other names does not count. -/
lemma itemsFor_cons_other {names : List String} {item : String × ByteArray}
    (items : List (String × ByteArray)) (h : Path.names item.1 ≠ names) :
    itemsFor names (item :: items) = itemsFor names items := by
  simp [itemsFor, h]

/-- The first item is combined before the others. -/
lemma successive_cons {mode : MergeMode} {item : String × ByteArray}
    {before : Option ByteArray} {content : ByteArray} (items : List (String × ByteArray))
    (h : combined mode (.ofPath item.1) before item.2 = some content) :
    successive mode (item :: items) before = successive mode items (some content) := by
  simp [successive, List.foldlM_cons, h]

/-! ## What is chosen and rendered -/

/-- With no listeners the jobs whose paths are not left out are taken. -/
lemma choose_nil_ok {frame : Option String} {refused : List AssembledFile} {taken : List Job}
    {w w' : World σ} (h : (choose environment frame []).exec w = (.ok (refused, taken), w')) :
    ∃ jobs, candidates w.tree environment frame = .ok jobs ∧
      taken = jobs.filter fun job => !environment.isExcluded job.candidate.path := by
  obtain ⟨w₁, hframed, _⟩ := frameJobs_exec frame w
  obtain ⟨framed, _, hexec, _⟩ := Work.exec_bind_ok.1 h
  rw [hframed] at hexec
  have hjobs : candidates w.tree environment frame = .ok (framed ++ builderJobs environment) := by
    rw [candidates, (Prod.mk.inj hexec).1]
    rfl
  obtain ⟨_, hchoose, _⟩ := choose_nil hjobs
  rw [h] at hchoose
  cases hchoose
  exact ⟨_, hjobs, filterMap_decision⟩

/-- The paths and the contents of rendered jobs. -/
def pathsWith (items : List (Job × ByteArray)) : List (String × ByteArray) :=
  items.map fun item => (item.1.candidate.path, item.2)

/-- Rendering jobs under their paths is rendering them and putting the paths beside. -/
lemma mapM_render {tree : FileTree} {tokens : Dict String} {taken : List Job}
    {contents : List ByteArray} (h : taken.mapM (render tree tokens) = .ok contents) :
    (taken.mapM fun job => return (job.candidate.path, ← render tree tokens job)) =
      .ok (pathsWith (taken.zip contents)) := by
  have hall := Result.mapM_eq_ok.1 h
  clear h
  apply Result.mapM_eq_ok.2
  induction hall with
  | nil => exact .nil
  | cons hrender _ ih =>
    refine .cons ?_ ih
    rw [hrender]
    rfl

/-! ## Writing one after the other -/

/-- What writing candidates one after the other has done to all files: each destination holds the
combination of what it held and what was written to it. -/
structure Folded (t : FileTree) (settings : AssemblySettings) (items : List (String × ByteArray))
    (before after : FileTree) : Prop where
  evolves : t.Evolves after
  leads : items ≠ [] → ∃ base, t.LeadsTo settings.output base
  destinations : ∀ base names, t.LeadsTo settings.output base →
    successive settings.write.mode (itemsFor names items) (before.content? (base ++ names)) =
      some (after.content? (base ++ names))
  elsewhere : ∀ place,
    (∀ base, t.LeadsTo settings.output base → ∀ item ∈ items, place ≠ base ++ Path.names item.1) →
    after.content? place = before.content? place

/-- Each write adds its item in front of what the others do. -/
lemma Folded.cons {item : String × ByteArray} {items : List (String × ByteArray)}
    {before middle after : FileTree} {place base : Place} {content : ByteArray}
    (hputs : Puts t settings item.1 before middle place content)
    (hbase : t.LeadsTo settings.output base) (hplace : place = base ++ Path.names item.1)
    (hcontent : combined settings.write.mode (.ofPath item.1) (before.content? place) item.2 =
      some content)
    (h : Folded t settings items middle after) :
    Folded t settings (item :: items) before after := by
  refine ⟨h.evolves, fun _ => ⟨base, hbase⟩, fun base' names hbase' => ?_, fun q hq => ?_⟩
  · obtain rfl := hbase.unique hbase'
    have ih := h.destinations base names hbase
    by_cases hn : Path.names item.1 = names
    · subst hn
      rw [← hplace, hputs.here] at ih
      rw [itemsFor_cons_same _ rfl, ← hplace, successive_cons _ hcontent, ih]
    · have hne : base ++ names ≠ place := by
        rw [hplace]
        exact fun e => hn (List.append_cancel_left e).symm
      rw [itemsFor_cons_other _ hn, ← ih, (hputs.elsewhere _ hne).content?]
  · have hne : q ≠ place := hplace ▸ hq base hbase item List.mem_cons_self
    rw [h.elsewhere q fun b hb i hi => hq b hb i (List.mem_cons_of_mem _ hi)]
    exact (hputs.elsewhere q hne).content?

/-- Writing rendered candidates with no listeners folds them into their destinations. -/
lemma writeAll_nil_ok (hfree : ∀ base, t.LeadsTo settings.output base → t.LinkFree base)
    (hreal : settings.write.dryRun = false) :
    ∀ {items : List (Job × ByteArray)} {files : List AssembledFile} {w w' : World σ},
      t.Evolves w.tree → (writeAll settings [] items).exec w = (.ok files, w') →
      Folded t settings (pathsWith items) w.tree w'.tree
  | [], files, w, w', ht, h => by
    cases h
    exact ⟨ht, fun h => absurd rfl h, fun _ _ _ => rfl, fun _ _ => rfl⟩
  | item :: items, files, w, w', ht, h => by
    obtain ⟨file, others, w₁, hone, hothers, rfl⟩ := Work.exec_mapM_cons_ok.1 h
    obtain ⟨place, content, before, hputs, hcontent, hbefore⟩ := writeOne_ok ht hreal hone
    obtain ⟨base, hbase, hplace⟩ :=
      place_of_entry hfree hputs.staysInside hputs.named hputs.entry
    have hlink : ∀ target, w.tree.node? place ≠ some (.link target) := by
      intro target e
      exact hfree base hbase place target (hplace ▸ List.prefix_append ..) (ht.link e)
    have ih := writeAll_nil_ok hfree hreal (ht.trans hputs.evolves) hothers
    rw [hbefore hlink] at hcontent
    exact ih.cons hputs hbase hplace hcontent

/-- When an assembly with no listeners succeeds, each destination holds what it held before,
combined one after the other with the rendered contents of the candidates for it that are not left
out, and every other file is as before. -/
theorem run_folds_destinations {report : Report} {w w' : World σ}
    (hfree : ∀ base, w.tree.LeadsTo settings.output base → w.tree.LinkFree base)
    (hreal : settings.write.dryRun = false)
    (h : (run environment settings []).exec w = (.ok report, w')) :
    ∃ items, rendered w.tree environment settings.frame = .ok items ∧
      (items ≠ [] → ∃ base, w.tree.LeadsTo settings.output base) ∧
      (∀ base names, w.tree.LeadsTo settings.output base →
        successive settings.write.mode (itemsFor names items) (w.tree.content? (base ++ names)) =
          some (w'.tree.content? (base ++ names))) ∧
      ∀ place,
        (∀ base, w.tree.LeadsTo settings.output base →
          ∀ item ∈ items, place ≠ base ++ Path.names item.1) →
        w'.tree.content? place = w.tree.content? place := by
  rw [run_eq] at h
  obtain ⟨⟨refused, taken⟩, w₁, hchosen, h⟩ := Work.exec_bind_ok.1 h
  obtain ⟨texts, w₂, htexts, h⟩ := Work.exec_bind_ok.1 h
  obtain ⟨files, w₃, hfiles, h⟩ := Work.exec_bind_ok.1 h
  cases h
  have htree₁ : w₁.tree = w.tree := (choose_still _ _ _).tree hchosen
  obtain ⟨jobs, hjobs, rfl⟩ := choose_nil_ok hchosen
  obtain ⟨htexts, htree₂, _⟩ := renderAll_ok htexts
  rw [htree₁] at htexts htree₂
  have hfold := writeAll_nil_ok (t := w.tree) hfree hreal (htree₂ ▸ .refl _) hfiles
  rw [htree₂] at hfold
  refine ⟨_, ?_, hfold.leads, hfold.destinations, hfold.elsewhere⟩
  rw [rendered, hjobs]
  exact mapM_render htexts

/-- Notes in a frame, and older notes in the output directory. -/
def notesTree : FileTree :=
  ⟨[(["frame"], .directory), (["frame", "notes.txt"], .file "new\n".toUTF8 FileTree.newFileMode),
    (["frame", "todo.txt"], .file "nothing\n".toUTF8 FileTree.newFileMode),
    (["out"], .directory), (["out", "notes.txt"], .file "old\n".toUTF8 FileTree.newFileMode)], []⟩

/-- An environment that builds further notes under another spelling of their path. -/
def notesEnvironment : Environment :=
  ⟨.empty, .ofList [("todo.txt", true)], .ofList [("notes", ⟨"./notes.txt", "built\n"⟩)]⟩

/-- Two candidates with one destination are written one after the other, and one that is excluded is
not. -/
theorem run_folds_notes :
    ∃ report w',
      (run notesEnvironment ⟨some "frame", "out", ⟨.concat, false⟩, true⟩ []).exec
        (⟨⟨#[], ()⟩, notesTree, .calm⟩ : World Unit) = (.ok report, w') ∧
      successive .concat [("notes.txt", "new\n".toUTF8), ("./notes.txt", "built\n".toUTF8)]
        (some "old\n".toUTF8) = some (w'.tree.content? ["out", "notes.txt"]) ∧
      w'.tree.content? ["out", "todo.txt"] = none := by
  have hrun : ((run notesEnvironment ⟨some "frame", "out", ⟨.concat, false⟩, true⟩ []).exec
      (⟨⟨#[], ()⟩, notesTree, .calm⟩ : World Unit)).1.toOption.isSome = true := by decide +kernel
  rcases he : (run notesEnvironment ⟨some "frame", "out", ⟨.concat, false⟩, true⟩ []).exec
    (⟨⟨#[], ()⟩, notesTree, .calm⟩ : World Unit) with ⟨e | report, w'⟩
  · rw [he] at hrun
    cases hrun
  have hfree : ∀ base, notesTree.LeadsTo "out" base → notesTree.LinkFree base :=
    fun base _ => FileTree.linkFree_of_nodes (by simp [notesTree]) base
  have hout : Path.names "out" = ["out"] := by decide +kernel
  have hbase : notesTree.LeadsTo "out" ["out"] := by
    rw [FileTree.LeadsTo, hout]
    exact .descend (FileTree.linkFree_of_nodes (by simp [notesTree]) []) List.nil_prefix (by decide)
  obtain ⟨items, hitems, _, hdest, hother⟩ := run_folds_destinations hfree rfl he
  have hgot : (rendered notesTree notesEnvironment (some "frame")).toOption =
      some [("notes.txt", "new\n".toUTF8), ("./notes.txt", "built\n".toUTF8)] := by decide +kernel
  rw [hitems] at hgot
  cases hgot
  refine ⟨report, w', rfl, hdest ["out"] ["notes.txt"] hbase, ?_⟩
  refine hother ["out", "todo.txt"] fun base h item hitem => ?_
  obtain rfl := hbase.unique h
  have hnames : ∀ i ∈ [("notes.txt", "new\n".toUTF8), ("./notes.txt", "built\n".toUTF8)],
      ["out", "todo.txt"] ≠ ["out"] ++ Path.names i.1 := by decide +kernel
  exact hnames item hitem

end ConfigPack.Assembly
