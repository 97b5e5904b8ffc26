import ConfigPack.Proofs.FileTree.Pave
import ConfigPack.Proofs.FileTree.Twin
import ConfigPack.Proofs.Pack.Staging

/-!
# The layout of a staged pack

Entries that are put into an empty directory stand there as files under their names, with
directories above them and nothing else beside them, when no entry is in the way of another.
-/

namespace ConfigPack.Pack

variable {σ : Type} {t₀ t t₁ : FileTree} {base : Place}

/-- An empty directory that a path leads to through directories. -/
structure Private (t : FileTree) (staging : String) (base : Place) : Prop where
  ne_empty : staging ≠ ""
  hasNul : Path.hasNul staging = false
  enters : t.Enters (FileTree.start t.workingDirectory staging) (Path.names staging) base
  directory : t.node? base = some .directory
  vacant : ∀ q, FileTree.Below base q → t.node? q = none

/-- A relative path of a file that can stand in any directory. -/
structure IsFilePath (name : String) : Prop where
  staysInside : Path.staysInside name = true
  hasNul : Path.hasNul name = false
  areNames : FileTree.AreNames (Path.names name)
  endsIn : ∃ above last, Path.EndsIn name above last ∧ ¬ (last = "" ∨ last = ".")

/-- The path of a file is relative. -/
lemma IsFilePath.isAbsolute {name : String} (h : IsFilePath name) :
    Path.isAbsolute name = false :=
  (Path.staysInside_iff.1 h.staysInside).1

/-- It ends in the last of its names. -/
lemma IsFilePath.endsIn_names {name last : String} {above : List String} (h : IsFilePath name)
    (hnames : Path.names name = above ++ [last]) : Path.EndsIn name above last := by
  obtain ⟨above', last', hends, hproper⟩ := h.endsIn
  obtain ⟨rfl, hlast⟩ := List.append_inj' ((hends.names hproper).symm.trans hnames) rfl
  cases hlast
  exact hends

/-- An entry may stand beside another: when its names are on the way of the other, both are one. -/
def Fit (e e' : String × ByteArray) : Prop :=
  Path.names e.1 <+: Path.names e'.1 → Path.names e.1 = Path.names e'.1 ∧ e.2 = e'.2

/-- What stands in a directory when entries are staged in it. -/
structure Layout (t₀ : FileTree) (base : Place) (entries : List (String × ByteArray))
    (t : FileTree) : Prop where
  workingDirectory : t.workingDirectory = t₀.workingDirectory
  outside : ∀ q, ¬ FileTree.Below base q → t.node? q = t₀.node? q
  file : ∀ e ∈ entries,
    t.node? (base ++ Path.names e.1) = some (.file e.2 FileTree.newFileMode)
  directory : ∀ e ∈ entries, ∀ front, front ≠ [] → front <+: Path.names e.1 →
    front ≠ Path.names e.1 → t.node? (base ++ front) = some .directory
  only : ∀ rest, rest ≠ [] → t.node? (base ++ rest) ≠ none →
    ∃ e ∈ entries, rest <+: Path.names e.1

/-- In an empty directory nothing is staged. -/
lemma Private.layout {staging : String} (h : Private t staging base) : Layout t base [] t := by
  refine ⟨rfl, fun _ _ => rfl, by simp, by simp, fun rest hne hnode => ?_⟩
  exact absurd (h.vacant _ ⟨List.prefix_append .., by simpa using hne⟩) hnode

/-- More names lead further below. -/
lemma below_append {rest : List String} (hne : rest ≠ []) : FileTree.Below base (base ++ rest) :=
  ⟨List.prefix_append .., by simpa using hne⟩

/-- Directories on the way of a new entry can be made. -/
lemma Layout.pavable {entries : List (String × ByteArray)} (h : Layout t₀ base entries t)
    {e : String × ByteArray} {above : List String} {last : String}
    (hnames : Path.names e.1 = above ++ [last]) (hfit : ∀ e' ∈ entries, Fit e' e) :
    t.Pavable base above := by
  intro front hne hpre
  by_cases hnode : t.node? (base ++ front) = none
  · exact .inl hnode
  obtain ⟨e', he', hway⟩ := h.only front hne hnode
  refine .inr (h.directory e' he' front hne hway fun hwhole => ?_)
  -- the other entry would be a file where a directory is needed
  have hshort : Path.names e'.1 <+: Path.names e.1 := by
    rw [← hwhole, hnames]
    exact hpre.trans (List.prefix_append ..)
  obtain ⟨hsame, _⟩ := hfit e' he' hshort
  have hlen := hpre.length_le
  rw [hwhole, hsame, hnames, List.length_append, List.length_singleton] at hlen
  omega

/-- At the place of a new entry stands nothing or the same file. -/
lemma Layout.place {entries : List (String × ByteArray)} (h : Layout t₀ base entries t)
    {e : String × ByteArray} (hne : Path.names e.1 ≠ []) (hfit : ∀ e' ∈ entries, Fit e e') :
    t.node? (base ++ Path.names e.1) = none ∨
      ∃ before, t.node? (base ++ Path.names e.1) = some (.file before FileTree.newFileMode) := by
  by_cases hnode : t.node? (base ++ Path.names e.1) = none
  · exact .inl hnode
  obtain ⟨e', he', hway⟩ := h.only _ hne hnode
  obtain ⟨hsame, _⟩ := hfit e' he' hway
  exact .inr ⟨e'.2, hsame ▸ h.file e' he'⟩

/-- One more entry is staged: its directories are made, then the file is written. -/
lemma Layout.stage {entries : List (String × ByteArray)} (h : Layout t₀ base entries t)
    {e : String × ByteArray} {above : List String} {last : String}
    (hnames : Path.names e.1 = above ++ [last]) (hfit : ∀ e' ∈ entries, Fit e e' ∧ Fit e' e)
    (hpaves : t.Paves base above t₁) :
    Layout t₀ base (entries ++ [e])
      (t₁.set (base ++ Path.names e.1) (.file e.2 FileTree.newFileMode)) := by
  have hne : base ++ Path.names e.1 ≠ [] := by simp [hnames]
  have hset := FileTree.node?_set (t := t₁) hne (.file e.2 FileTree.newFileMode)
  -- what is apart from the names of the new entry is as it was
  have hkept : ∀ rest, ¬ rest <+: Path.names e.1 → t₁.node? (base ++ rest) = t.node? (base ++ rest) := by
    intro rest hrest
    apply hpaves.kept
    rintro front _ hpre e'
    rw [List.append_cancel_left e', hnames] at hrest
    exact hrest (hpre.trans (List.prefix_append ..))
  refine ⟨hpaves.workingDirectory.trans h.workingDirectory, fun q hq => ?_, fun e' he' => ?_,
    fun e' he' front hfront hpre hlonger => ?_, fun rest hrest hnode => ?_⟩
  · rw [hset, if_neg, hpaves.kept, h.outside q hq]
    · rintro front hfront _ rfl
      exact hq (below_append hfront)
    · rintro rfl
      exact hq (below_append (by simp [hnames]))
  · rw [hset]
    rcases List.mem_append.1 he' with he' | he'
    · split
      next hsame =>
        have hsame := List.append_cancel_left hsame
        obtain ⟨_, hdata⟩ := (hfit e' he').2 (hsame ▸ List.prefix_rfl)
        rw [hdata]
      next hother =>
        rw [hkept]
        · exact h.file e' he'
        · intro hpre
          exact hother (by rw [((hfit e' he').2 hpre).1])
    · rw [List.mem_singleton.1 he', if_pos rfl]
  · rw [hset, if_neg]
    · rcases List.mem_append.1 he' with he' | he'
      · exact hpaves.directory (h.directory e' he' front hfront hpre hlonger)
      · rw [List.mem_singleton.1 he', hnames] at hpre hlonger
        rcases List.prefix_concat_iff.1 hpre with e'' | hpre
        · exact absurd e'' hlonger
        · exact hpaves.made front hfront hpre
    · intro hsame
      have hsame := List.append_cancel_left hsame
      rcases List.mem_append.1 he' with he' | he'
      · obtain ⟨hwhole, _⟩ := (hfit e' he').1 (hsame ▸ hpre)
        exact hlonger (hsame.trans hwhole)
      · rw [List.mem_singleton.1 he'] at hlonger
        exact hlonger hsame
  · by_cases hway : rest <+: Path.names e.1
    · exact ⟨e, by simp, hway⟩
    · rw [hset, if_neg, hkept rest hway] at hnode
      · obtain ⟨e', he', hpre⟩ := h.only rest hrest hnode
        exact ⟨e', List.mem_append_left _ he', hpre⟩
      · intro hsame
        exact hway (List.append_cancel_left hsame ▸ List.prefix_rfl)

/-! ## Staging -/

/-- The directories that were there are there. -/
lemma Layout.keeps_directory {staging : String} {entries : List (String × ByteArray)}
    (h : Layout t₀ base entries t) (hprivate : Private t₀ staging base) {q : Place}
    (hq : t₀.node? q = some .directory) : t.node? q = some .directory := by
  rw [h.outside q, hq]
  intro hbelow
  rw [hprivate.vacant q hbelow] at hq
  cases hq

/-- A path in the directory begins where the directory is reached. -/
lemma Layout.enters {staging name : String} {entries : List (String × ByteArray)}
    (h : Layout t₀ base entries t) (hprivate : Private t₀ staging base)
    (hname : Path.isAbsolute name = false) :
    t.Enters (FileTree.start t.workingDirectory (Path.join staging name)) (Path.names staging)
      base := by
  rw [h.workingDirectory, FileTree.start_eq (Path.isAbsolute_join hname)]
  exact hprivate.enters.mono fun _ => h.keeps_directory hprivate

/-- The path of a file has a name. -/
lemma IsFilePath.names_ne_nil {name : String} (h : IsFilePath name) : Path.names name ≠ [] := by
  obtain ⟨above, last, hends, hproper⟩ := h.endsIn
  simp [hends.names hproper]

/-- It can be taken below the staging directory as long as it is short enough there. -/
lemma IsFilePath.fits {staging name : String} (h : IsFilePath name)
    (hprivate : Private t staging base)
    (hsize : (Path.join staging name).utf8ByteSize < FileTree.pathLimit) :
    FileTree.Fits (Path.join staging name) := by
  have hnul : Path.hasNul (Path.join staging name) = false := by
    rw [Path.hasNul_join h.isAbsolute, hprivate.hasNul, h.hasNul]
    rfl
  refine ⟨fun hempty => ?_, hnul, hsize⟩
  have hnames : Path.names (Path.join staging name) = _ := Path.names_join h.isAbsolute
  rw [hempty, Path.names_empty] at hnames
  exact h.names_ne_nil (List.append_eq_nil_iff.1 hnames.symm).2

/-- It is the end of the way down from the staging directory. -/
lemma IsFilePath.onLadder {staging name : String} (h : IsFilePath name)
    (hfits : FileTree.Fits (Path.join staging name)) :
    FileTree.OnLadder (Path.join staging name) (Path.names staging) (Path.names name)
      (Path.join staging name) :=
  ⟨.inr hfits, rfl, fun _ _ hnames => (h.endsIn_names hnames).join h.isAbsolute,
    Path.names_join h.isAbsolute⟩

/-- The path of an entry whose directories are there. -/
lemma IsFilePath.entryIn {staging name last : String} {above : List String} (h : IsFilePath name)
    (hnames : Path.names name = above ++ [last]) (hfits : FileTree.Fits (Path.join staging name))
    (henters : t.Enters (FileTree.start t.workingDirectory (Path.join staging name))
      (Path.names staging ++ above) (base ++ above)) :
    t.EntryIn (Path.join staging name) (base ++ above) last := by
  obtain ⟨hentry, hsize⟩ := h.areNames last (by simp [hnames])
  exact ⟨hfits, hentry, hsize, _, (h.endsIn_names hnames).join h.isAbsolute, henters⟩

/-- An entry that is in the way of no other is staged. -/
lemma stageEntry_ok {staging : String} {entries : List (String × ByteArray)}
    {e : String × ByteArray} {w : World σ} (hprivate : Private t₀ staging base)
    (h : Layout t₀ base entries w.tree) (hpath : IsFilePath e.1)
    (hsafe : Archive.isSafeName e.1 = true)
    (hsize : (Path.join staging e.1).utf8ByteSize < FileTree.pathLimit)
    (hfit : ∀ e' ∈ entries, Fit e e' ∧ Fit e' e) :
    ∃ t', (stageEntry staging e).exec w = (.ok (), { w with tree := t' }) ∧
      Layout t₀ base (entries ++ [e]) t' := by
  have hfits := hpath.fits hprivate hsize
  have hne := hpath.names_ne_nil
  obtain ⟨above, last, hnames⟩ : ∃ above last, Path.names e.1 = above ++ [last] :=
    ⟨_, _, (List.dropLast_concat_getLast hne).symm⟩
  have hladder := hpath.onLadder hfits
  rw [hnames] at hladder
  obtain ⟨up, hup, hupper⟩ := hladder.parent
  have henters := h.enters hprivate hpath.isAbsolute
  rw [← FileTree.start_eq hupper.isAbsolute] at henters
  have habove : FileTree.AreNames above := fun name hn => hpath.areNames name (by simp [hnames, hn])
  have hpavable := h.pavable hnames fun e' he' => (hfit e' he').2
  have hbase := h.keeps_directory hprivate hprivate.directory
  -- the directories above are made, and nothing else
  obtain ⟨t₁, hmake, hpaves⟩ := hpavable.makeDirectories henters hbase habove
    ⟨hupper.fits, rfl, hupper.endsIn, hupper.names⟩
  have henters₁ : t₁.Enters (FileTree.start t₁.workingDirectory (Path.join staging e.1))
      (Path.names staging ++ above) (base ++ above) := by
    rw [hpaves.workingDirectory, ← FileTree.start_eq hupper.isAbsolute]
    exact (henters.mono fun _ => hpaves.directory).append (habove.enters hpaves.made)
  have hentry := hpath.entryIn hnames hfits henters₁
  have hplace : base ++ above ++ [last] = base ++ Path.names e.1 := by
    rw [hnames, List.append_assoc]
  -- where the entry goes nothing stands, or the same file
  have hnode := h.place hne fun e' he' => (hfit e' he').1
  rw [← hpaves.kept] at hnode
  · rw [← hplace] at hnode
    have hwrite : t₁.write _ e.2 = _ := hentry.write hnode
    rw [hplace] at hwrite
    refine ⟨_, ?_, h.stage hnames hfit hpaves⟩
    rw [stageEntry_eq hsafe, makeAbove, hup]
    simp only [Work.exec_bind, Work.exec_changePartly, hmake, Except.mapError, Work.exec_change,
      hwrite]
  · intro front _ hpre e'
    have hlen := hpre.length_le
    rw [← List.append_cancel_left e', hnames, List.length_append, List.length_singleton] at hlen
    omega

/-- Entries that can be staged in a directory, each by itself and all of them together. -/
structure Stageable (staging : String) (entries : List (String × ByteArray)) : Prop where
  isFilePath : ∀ e ∈ entries, IsFilePath e.1
  isSafeName : ∀ e ∈ entries, Archive.isSafeName e.1 = true
  size : ∀ e ∈ entries, (Path.join staging e.1).utf8ByteSize < FileTree.pathLimit
  fit : ∀ e ∈ entries, ∀ e' ∈ entries, Fit e e'

/-- All entries are staged. -/
lemma stageEntries_ok {staging : String} {entries : List (String × ByteArray)}
    (hprivate : Private t₀ staging base) (hstageable : Stageable staging entries) :
    ∀ {rest done : List (String × ByteArray)} {w : World σ}, entries = done ++ rest →
      Layout t₀ base done w.tree →
      ∃ t', (rest.forM fun entry => Work.within Failure.pack (stageEntry staging entry)).exec w =
          (.ok (), { w with tree := t' }) ∧
        Layout t₀ base entries t'
  | [], done, w, hsplit, h => by
    rw [List.append_nil] at hsplit
    exact ⟨w.tree, rfl, hsplit ▸ h⟩
  | e :: rest, done, w, hsplit, h => by
    have hmem : e ∈ entries := by simp [hsplit]
    have hdone : ∀ e' ∈ done, e' ∈ entries := by
      intro e' he'
      rw [hsplit]
      exact List.mem_append_left _ he'
    obtain ⟨t₁, hone, hlayout⟩ := stageEntry_ok hprivate h (hstageable.isFilePath e hmem)
      (hstageable.isSafeName e hmem) (hstageable.size e hmem) fun e' he' =>
        ⟨hstageable.fit e hmem e' (hdone e' he'), hstageable.fit e' (hdone e' he') e hmem⟩
    obtain ⟨t', hrest, hall⟩ := stageEntries_ok hprivate hstageable (w := { w with tree := t₁ })
      (by simpa using hsplit) hlayout
    refine ⟨t', ?_, hall⟩
    rw [Work.exec_forM_cons, Work.exec_within, hone]
    exact hrest

end ConfigPack.Pack
