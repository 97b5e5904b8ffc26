import ConfigPack.Proofs.Output.Leaves

/-!
# What one write leaves

`combined` says, without drafts and listeners, what a file holds after content was written to it:
the content itself, or what was there with the content merged into it.  A write with no listeners
makes directories on the way of its path and puts that content at the entry of the path.
-/

namespace ConfigPack

/-- The text that bytes encode. -/
def textOf? (data : ByteArray) : Option String := (Utf8.decode data).toOption

/-- What a file holds after data was written to it; none when the two cannot be merged. -/
def combined (mode : MergeMode) (kind : MergeKind) (before : Option ByteArray) (data : ByteArray) :
    Option ByteArray :=
  match mode.admits kind, before with
  | false, _ => some data
  | true, none => some data
  | true, some existing =>
    match kind with
    | .concat => some (existing ++ data)
    | .json =>
      if isBlank existing then some data
      else do
        let new ← (Json.parse (← textOf? data)).toOption
        let old ← (Json.parse (← textOf? existing)).toOption
        return ((old.merge new).indented ++ "\n").toUTF8
    | .yaml =>
      if isBlank existing then some data
      else do
        let new ← (Yaml.parse (← textOf? data)).toOption
        let old ← (Yaml.parse (← textOf? existing)).toOption
        return (← (old.merge new).print.toOption).toUTF8
    | .custom => none

/-- Nothing is merged into a file that is not there. -/
lemma combined_none (mode : MergeMode) (kind : MergeKind) (data : ByteArray) :
    combined mode kind none data = some data := by
  cases h : mode.admits kind <;> simp [combined, h]

namespace Output

variable {σ : Type}

@[simp] lemma emitWrite_nil (draft : Draft) :
    Bus.emitWrite ([] : Bus σ) draft = pure draft := rfl

@[simp] lemma emitMerge_nil (draft : Draft) :
    Bus.emitMerge ([] : Bus σ) draft = pure draft := rfl

/-- Without listeners the final content is that of the draft, or that of its merge. -/
lemma settles_nil {tree : FileTree} {draft final : Draft} {content : ByteArray} {s : σ}
    (h : Settles [] tree draft s final content) :
    final.path = draft.path ∧
      (mergeBase tree draft = .ok none ∧ content = draft.data ∨
        ∃ existing opened, mergeBase tree draft = .ok (some existing) ∧
          { draft with existing := some existing }.opened = .ok opened ∧
          opened.merged = .ok content) := by
  cases h with
  | plain hbase => exact ⟨rfl, .inl ⟨hbase, rfl⟩⟩
  | merged hbase hopened hheard hmerged =>
    cases hheard
    exact ⟨(opened_path hopened :), .inr ⟨_, _, hbase, hopened, hmerged⟩⟩

/-- A structured draft is merged as the documents of both sides are. -/
lemma merged_of_opened {draft opened : Draft} {content : ByteArray} (hresult : draft.result = none)
    (hkind : draft.kind.isStructured = true) (ho : draft.opened = .ok opened)
    (hm : opened.merged = .ok content) :
    ∃ pair text, draft.readPair = .ok pair ∧ pair.merged? = some text ∧ content = text.toUTF8 := by
  simp only [Draft.opened, hkind, ↓reduceIte] at ho
  rcases hp : draft.readPair with e | pair
  · rw [hp] at ho
    cases ho
  rw [hp] at ho
  cases ho
  simp only [Draft.merged, hresult] at hm
  cases hk : draft.kind with
  | concat =>
    rw [hk] at hkind
    cases hkind
  | custom =>
    rw [hk] at hkind
    cases hkind
  | json =>
    rw [hk] at hm
    rcases ht : pair.merged? with _ | text
    all_goals
      simp only [bind, Except.bind, ht] at hm
      cases hm
    exact ⟨pair, text, rfl, ht, rfl⟩
  | yaml =>
    rw [hk] at hm
    rcases ht : pair.merged? with _ | text
    all_goals
      simp only [bind, Except.bind, ht] at hm
      cases hm
    exact ⟨pair, text, rfl, ht, rfl⟩

/-- The text of some data is what it is decoded to. -/
lemma textOf?_eq_some {data : ByteArray} {text : String} :
    textOf? data = some text ↔ Utf8.decode data = .ok text := by
  rw [textOf?]
  cases Utf8.decode data <;> simp [Except.toOption]

/-- Both sides of a draft that is read are texts. -/
lemma readPair_ok {draft : Draft} {existing : ByteArray} {pair : Pair}
    (he : draft.existing = some existing) (h : draft.readPair = .ok pair) :
    ∃ new old, textOf? draft.data = some new ∧ textOf? existing = some old ∧
      (match draft.kind with
        | .yaml => Pair.readYaml draft.path old new
        | _ => Pair.readJson draft.path old new) = .ok pair := by
  rw [Draft.readPair, he, Option.getD_some] at h
  obtain ⟨new, hnew, h⟩ := Result.bind_eq_ok.1 h
  obtain ⟨old, hold, h⟩ := Result.bind_eq_ok.1 h
  rw [Result.mapError_eq_ok] at hnew hold
  exact ⟨new, old, textOf?_eq_some.2 hnew, textOf?_eq_some.2 hold, h⟩

/-- A pair of documents is read when both of them are. -/
lemma readJson_ok {path old new : String} {pair : Pair}
    (h : Pair.readJson path old new = .ok pair) :
    ∃ a b, Json.parse old = .ok a ∧ Json.parse new = .ok b ∧ pair = .json a b := by
  obtain ⟨a, ha, h⟩ := Result.bind_eq_ok.1 h
  obtain ⟨b, hb, h⟩ := Result.bind_eq_ok.1 h
  cases h
  exact ⟨a, b, Result.mapError_eq_ok.1 ha, Result.mapError_eq_ok.1 hb, rfl⟩

/-- So is a pair in the other format. -/
lemma readYaml_ok {path old new : String} {pair : Pair}
    (h : Pair.readYaml path old new = .ok pair) :
    ∃ a b, Yaml.parse old = .ok a ∧ Yaml.parse new = .ok b ∧ pair = .yaml a b := by
  obtain ⟨a, ha, h⟩ := Result.bind_eq_ok.1 h
  obtain ⟨b, hb, h⟩ := Result.bind_eq_ok.1 h
  cases h
  exact ⟨a, b, Result.mapError_eq_ok.1 ha, Result.mapError_eq_ok.1 hb, rfl⟩

/-- What a write with no listeners merges is the combination of both sides. -/
lemma combined_of_merged {mode : MergeMode} {path : String} {data content existing : ByteArray}
    {opened : Draft} (hmode : mode.admits (MergeKind.ofPath path) = true)
    (hblank : ((MergeKind.ofPath path).isStructured && isBlank existing) = false)
    (ho : { Draft.start mode path data with existing := some existing }.opened = .ok opened)
    (hm : opened.merged = .ok content) :
    combined mode (MergeKind.ofPath path) (some existing) data = some content := by
  -- by the kind of the file: texts are appended, documents are read, merged and printed
  cases hk : MergeKind.ofPath path with
  | concat =>
    rw [hk] at hmode
    simp only [Draft.opened, Draft.start, hk, MergeKind.isStructured] at ho
    cases ho
    simp only [Draft.merged, Except.ok.injEq] at hm
    subst hm
    simp [combined, hmode]
  | custom =>
    simp only [Draft.opened, Draft.start, hk, MergeKind.isStructured] at ho
    cases ho
    cases hm
  | json =>
    rw [hk] at hmode hblank
    obtain ⟨pair, text, hp, ht, rfl⟩ := merged_of_opened rfl (by simp [Draft.start, hk,
      MergeKind.isStructured]) ho hm
    obtain ⟨new, old, hnew, hold, hread⟩ := readPair_ok rfl hp
    simp only [Draft.start, hk] at hread hnew
    obtain ⟨a, b, ha, hb, rfl⟩ := readJson_ok hread
    simp only [MergeKind.isStructured, Bool.true_and] at hblank
    cases ht
    simp [combined, hmode, hblank, hnew, hold, ha, hb, Except.toOption]
  | yaml =>
    rw [hk] at hmode hblank
    obtain ⟨pair, text, hp, ht, rfl⟩ := merged_of_opened rfl (by simp [Draft.start, hk,
      MergeKind.isStructured]) ho hm
    obtain ⟨new, old, hnew, hold, hread⟩ := readPair_ok rfl hp
    simp only [Draft.start, hk] at hread hnew
    obtain ⟨a, b, ha, hb, rfl⟩ := readYaml_ok hread
    simp only [MergeKind.isStructured, Bool.true_and] at hblank
    simp only [Pair.merged?] at ht
    have ha' : (Yaml.parse old).toOption = some a := by rw [ha]; rfl
    have hb' : (Yaml.parse new).toOption = some b := by rw [hb]; rfl
    simp [combined, hmode, hblank, hnew, hold, ha', hb', ht]

/-- What is read at a path that ends at an entry, when no link stands there. -/
lemma readExisting_of_walk {tree : FileTree} {path : String} {directory : Place} {name : String}
    (hw : tree.walk false path = .ok (tree.landingAt directory name))
    (hdir : tree.node? (directory ++ [name]) ≠ some .directory)
    (hlink : ∀ target, tree.node? (directory ++ [name]) ≠ some (.link target)) :
    readExisting tree path = .ok (tree.content? (directory ++ [name])) := by
  have hfollow := FileTree.walk_follow hw fun target => by
    rw [FileTree.landingAt_place]
    exact hlink target
  rw [readExisting, FileTree.read, FileTree.locate, hfollow, FileTree.content?]
  rcases hn : tree.node? (directory ++ [name]) with _ | node
  · rw [FileTree.landingAt_none hn]
    rfl
  · rw [FileTree.landingAt_some hn]
    cases node with
    | file data mode =>
      simp [bind, Except.bind, pure, Except.pure, FileTree.readAt, hn]
    | link target => exact absurd hn (hlink target)
    | directory => exact absurd hn hdir

/-- The draft of a write is merged with what is there when its mode admits that and it is not a
blank structured file. -/
lemma mergeBase_start {tree : FileTree} (mode : MergeMode) {path : String} (data : ByteArray)
    {before : Option ByteArray} (hread : readExisting tree path = .ok before) :
    mergeBase tree (Draft.start mode path data) =
      .ok (if mode.admits (MergeKind.ofPath path) then
        before.filter fun existing => !((MergeKind.ofPath path).isStructured && isBlank existing)
      else none) := by
  change (if mode.admits (MergeKind.ofPath path) = true then _ else _) = _
  split
  · change (readExisting tree path >>= _) = _
    rw [hread]
    rfl
  · rfl

/-- What a write with no listeners settles on is the combination of what was there and what was
written. -/
lemma combined_of_settles {tree : FileTree} {mode : MergeMode} {path : String}
    {data content : ByteArray} {before : Option ByteArray} {final : Draft} {s : σ}
    (hread : readExisting tree path = .ok before)
    (h : Settles [] tree (Draft.start mode path data) s final content) :
    combined mode (MergeKind.ofPath path) before data = some content := by
  have hbase := mergeBase_start mode data hread
  rcases (settles_nil h).2 with ⟨hnone, rfl⟩ | ⟨existing, opened, hsome, hopened, hmerged⟩
  · rw [hbase, Except.ok.injEq] at hnone
    cases hmode : mode.admits (MergeKind.ofPath path) with
    | false => simp [combined, hmode]
    | true =>
      rw [hmode, if_pos rfl, Option.filter_eq_none_iff] at hnone
      cases before with
      | none => simp [combined_none]
      | some existing =>
        have hblank := hnone existing rfl
        rcases hk : MergeKind.ofPath path <;> rw [hk] at hmode hblank <;>
          simp_all [combined, Draft.start, MergeKind.isStructured]
  · rw [hbase, Except.ok.injEq] at hsome
    split at hsome
    next hmode =>
      obtain ⟨rfl, hblank⟩ := Option.filter_eq_some_iff.1 hsome
      rw [Bool.not_eq_true'] at hblank
      exact combined_of_merged hmode hblank hopened hmerged
    next => cases hsome

/-- What it settles on is a combination also where a link stands. -/
lemma settles_combines {tree : FileTree} {mode : MergeMode} {path : String}
    {data content : ByteArray} {final : Draft} {s : σ}
    (h : Settles [] tree (Draft.start mode path data) s final content) :
    ∃ before, combined mode (MergeKind.ofPath path) before data = some content := by
  rcases hread : readExisting tree path with e | before
  · rcases (settles_nil h).2 with ⟨_, rfl⟩ | ⟨existing, _, hsome, _⟩
    · exact ⟨none, combined_none ..⟩
    · change (if mode.admits (MergeKind.ofPath path) = true then readExisting tree path >>= _
        else _) = _ at hsome
      rw [hread] at hsome
      split at hsome <;> cases hsome
  · exact ⟨before, combined_of_settles hread h⟩

/-- A write that succeeds puts a file at the entry of its path, behind directories made on the way.
Where no link stood it is the combination of what was there and what was written. -/
lemma write_nil_ok {settings : WriteSettings} {path : String} {data : ByteArray}
    {written : Written} {w w' : World σ} (hreal : settings.dryRun = false)
    (h : (write settings [] path data).exec w = (.ok written, w')) :
    ∃ grown directory name content mode before,
      w.tree.Grows (w.tree.OnWay path) grown ∧ grown.HasEntry path directory name ∧
        (Path.segments path).getLast? = some name ∧
        grown.node? (directory ++ [name]) ≠ some .directory ∧
        w'.tree = grown.set (directory ++ [name]) (.file content mode) ∧
        combined settings.mode (MergeKind.ofPath path) before data = some content ∧
        ((∀ target, grown.node? (directory ++ [name]) ≠ some (.link target)) →
          before = grown.content? (directory ++ [name])) := by
  have hleaves := write_leaves h
  generalize w'.tree = tree at hleaves ⊢
  cases hleaves with
  | dry hdry =>
    rw [hdry] at hreal
    cases hreal
  | replaced hstarted hsettles hreplace =>
    cases hstarted
    have hpath : (Draft.start settings.mode path data).path = path := rfl
    rw [(settles_nil hsettles).1, hpath] at hreplace
    rw [hpath] at hsettles
    obtain ⟨directory, name, mode, hentry, hlast, hwalk, hdir, hset⟩ :=
      FileTree.replace_ok hreplace
    by_cases hlink : ∀ target,
        (w.tree.readied path).node? (directory ++ [name]) ≠ some (.link target)
    · have hcombined := combined_of_settles (readExisting_of_walk hwalk hdir hlink) hsettles
      exact ⟨_, directory, name, _, mode, _, readied_grows w.tree path, hentry, hlast, hdir, hset,
        hcombined, fun _ => rfl⟩
    · obtain ⟨before, hcombined⟩ := settles_combines hsettles
      exact ⟨_, directory, name, _, mode, before, readied_grows w.tree path, hentry, hlast, hdir,
        hset, hcombined, fun hnone => absurd hnone hlink⟩

/-- The final draft has the path of the one before it when listeners keep paths. -/
lemma Settles.path {bus : Bus σ} (hbus : ∀ l ∈ bus, l.KeepsPath) {tree : FileTree}
    {draft final : Draft} {content : ByteArray} {s : σ}
    (h : Settles bus tree draft s final content) : final.path = draft.path := by
  cases h with
  | plain => rfl
  | merged _ hopened hheard _ =>
    rw [Bus.emitMerge_path hbus hheard]
    exact (opened_path hopened :)

/-- Whatever becomes of a write, it makes directories on the way of its path, and a file only at the
entry of its path and only when it succeeds. -/
lemma write_puts {settings : WriteSettings} {bus : Bus σ} (hbus : ∀ l ∈ bus, l.KeepsPath)
    {path : String} {data : ByteArray} {result : Except OutputError Written} {w w' : World σ}
    (h : (write settings bus path data).exec w = (result, w')) :
    ∃ grown, w.tree.Grows (w.tree.OnWay path) grown ∧
      (w'.tree = grown ∨
        ∃ written directory name content mode, result = .ok written ∧
          grown.HasEntry path directory name ∧ (Path.segments path).getLast? = some name ∧
          grown.node? (directory ++ [name]) ≠ some .directory ∧
          w'.tree = grown.set (directory ++ [name]) (.file content mode)) := by
  have hpath : ∀ {draft s}, Started settings bus path data w draft s → draft.path = path :=
    fun hstarted => Bus.emitWrite_path hbus hstarted
  have hleaves := write_leaves h
  generalize w'.tree = tree at hleaves ⊢
  cases hleaves with
  | dry => exact ⟨w.tree, .refl _, .inl rfl⟩
  | stopped => exact ⟨w.tree, .refl _, .inl rfl⟩
  | failed hstarted =>
    rw [hpath hstarted]
    exact ⟨_, readied_grows w.tree path, .inl rfl⟩
  | replaced hstarted hsettles hreplace =>
    rw [hsettles.path hbus, hpath hstarted] at hreplace
    obtain ⟨directory, name, mode, hentry, hlast, _, hdir, hset⟩ := FileTree.replace_ok hreplace
    exact ⟨_, readied_grows w.tree path,
      .inr ⟨_, directory, name, _, mode, rfl, hentry, hlast, hdir, hset⟩⟩

/-- A write that fails has made at most directories on the way of its path. -/
lemma write_error {settings : WriteSettings} {bus : Bus σ} (hbus : ∀ l ∈ bus, l.KeepsPath)
    {path : String} {data : ByteArray} {e : OutputError} {w w' : World σ}
    (h : (write settings bus path data).exec w = (.error e, w')) :
    w.tree.Grows (w.tree.OnWay path) w'.tree := by
  obtain ⟨grown, hgrows, rfl | ⟨_, _, _, _, _, hok, _⟩⟩ := write_puts hbus h
  · exact hgrows
  · cases hok

end Output

end ConfigPack
