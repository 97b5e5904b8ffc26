import ConfigPack.Proofs.Assembly.Listing
import ConfigPack.Proofs.Assembly.Phases
import ConfigPack.Proofs.Pack.Layout

/-!
# The frame of a staged pack

What was staged is read back, and listing a directory of the staged pack gives the entries below it
by the names that they were stored with.
-/

namespace ConfigPack.Pack

variable {t₀ t : FileTree} {base : Place} {staging : String} {entries : List (String × ByteArray)}

/-- A staged entry is found by its path. -/
lemma Layout.entryIn (h : Layout t₀ base entries t) (hprivate : Private t₀ staging base)
    (hstageable : Stageable staging entries) {e : String × ByteArray} (he : e ∈ entries)
    {above : List String} {last : String} (hnames : Path.names e.1 = above ++ [last]) :
    t.EntryIn (Path.join staging e.1) (base ++ above) last := by
  have hpath := hstageable.isFilePath e he
  refine hpath.entryIn hnames (hpath.fits hprivate (hstageable.size e he)) ?_
  refine (h.enters hprivate hpath.isAbsolute).append ?_
  have habove : FileTree.AreNames above := fun name hn => hpath.areNames name (by simp [hnames, hn])
  refine habove.enters fun front hne hpre => ?_
  refine h.directory e he front hne (hnames ▸ hpre.trans (List.prefix_append ..)) fun hwhole => ?_
  have hlen := hpre.length_le
  rw [hwhole, hnames, List.length_append, List.length_singleton] at hlen
  omega

/-- A staged entry is found below the staging directory. -/
lemma Layout.locate (h : Layout t₀ base entries t) (hprivate : Private t₀ staging base)
    (hstageable : Stageable staging entries) {e : String × ByteArray} (he : e ∈ entries) :
    t.locate (Path.join staging e.1) = .ok (base ++ Path.names e.1) := by
  have hne := (hstageable.isFilePath e he).names_ne_nil
  have hnames := (List.dropLast_concat_getLast hne).symm
  have hfile := h.file e he
  rw [hnames, ← List.append_assoc] at hfile ⊢
  exact (h.entryIn hprivate hstageable he hnames).locate_file hfile

/-- A staged entry is read back. -/
lemma Layout.read (h : Layout t₀ base entries t) (hprivate : Private t₀ staging base)
    (hstageable : Stageable staging entries) {e : String × ByteArray} (he : e ∈ entries) :
    t.read (Path.join staging e.1) = .ok e.2 := by
  simp only [FileTree.read, h.locate hprivate hstageable he, bind, Except.bind, FileTree.readAt,
    h.file e he]

/-- It is no directory there. -/
lemma Layout.entryIsDirectory_file (h : Layout t₀ base entries t)
    (hprivate : Private t₀ staging base) (hstageable : Stageable staging entries)
    {e : String × ByteArray} (he : e ∈ entries) :
    t.entryIsDirectory (Path.join staging e.1) = false := by
  simp only [FileTree.entryIsDirectory,
    FileTree.locateEntry_of_locate (h.locate hprivate hstageable he), h.file e he]

/-! ## Directories -/

/-- Every entry below some names is spelled by its names, and these go further. -/
def SpelledBelow (entries : List (String × ByteArray)) (names : List String) : Prop :=
  ∀ e ∈ entries, names <+: Path.names e.1 →
    ∃ more, more ≠ [] ∧ FileTree.AreEntries (names ++ more) ∧
      e.1 = FileTree.spelled (names ++ more)

variable {names : List String}

/-- The names of an entry below some names are those it is spelled with. -/
lemma SpelledBelow.names_eq (h : SpelledBelow entries names) {e : String × ByteArray}
    (he : e ∈ entries) (hpre : names <+: Path.names e.1) :
    ∃ more, more ≠ [] ∧ FileTree.AreEntries (names ++ more) ∧
      e.1 = FileTree.spelled (names ++ more) ∧ Path.names e.1 = names ++ more := by
  obtain ⟨more, hmore, hentries, hspelled⟩ := h e he hpre
  exact ⟨more, hmore, hentries, hspelled, by rw [hspelled, hentries.names_spelled]⟩

/-- A directory above a spelled entry is found by its path. -/
lemma Layout.directory_of_spelled (h : Layout t₀ base entries t)
    (hprivate : Private t₀ staging base) (hstageable : Stageable staging entries) {more : List String}
    (hentries : FileTree.AreEntries (names ++ more)) (hnames : names ≠ []) (hmore : more ≠ [])
    {e : String × ByteArray} (he : e ∈ entries) (hspelled : e.1 = FileTree.spelled (names ++ more)) :
    t.locate (Path.join staging (FileTree.spelled names)) = .ok (base ++ names) ∧
      t.node? (base ++ names) = some .directory := by
  have hpath := hstageable.isFilePath e he
  have hfits := hpath.fits hprivate (hstageable.size e he)
  have hall : Path.names e.1 = names ++ more := by rw [hspelled, hentries.names_spelled]
  have hdir : ∀ front, front ≠ [] → front <+: names → t.node? (base ++ front) = some .directory := by
    intro front hne hpre
    refine h.directory e he front hne (hall ▸ hpre.trans (List.prefix_append ..)) fun hwhole => ?_
    have hlen := hpre.length_le
    have := List.length_pos_iff.2 hmore
    rw [hwhole, hall, List.length_append] at hlen
    omega
  have hareNames : FileTree.AreNames names :=
    fun name hn => hpath.areNames name (by simp [hall, hn])
  have hrel := hentries.of_append_left.isAbsolute
  refine ⟨FileTree.Enters.locate ?_ ?_, hdir names hnames List.prefix_rfl⟩
  · rw [Path.names_join hrel, hentries.of_append_left.names_spelled]
    exact (h.enters hprivate hrel).append (hareNames.enters hdir)
  · rw [hspelled] at hfits
    exact hentries.of_append_left.fits hnames hfits

/-- A list is continued by the first of the names behind it. -/
lemma prefix_concat (names rest : List String) (name : String) :
    names ++ [name] <+: names ++ name :: rest :=
  ⟨rest, by simp⟩

/-- What stands in a staged directory is on the way of an entry. -/
lemma Layout.entry_of_mem (h : Layout t₀ base entries t) (hspelled : SpelledBelow entries names)
    {name : String} (hname : name ∈ t.namesIn (base ++ names)) :
    ∃ e ∈ entries, ∃ rest, FileTree.AreEntries (names ++ [name] ++ rest) ∧
      e.1 = FileTree.spelled (names ++ [name] ++ rest) ∧
      Path.names e.1 = names ++ [name] ++ rest := by
  rw [FileTree.mem_namesIn, List.append_assoc] at hname
  obtain ⟨e, he, hpre⟩ := h.only _ (by simp) hname
  obtain ⟨more, _, hentries, hspell, hall⟩ :=
    hspelled.names_eq he ((List.prefix_append ..).trans hpre)
  rw [hall] at hpre
  obtain ⟨rest, hrest⟩ := (List.prefix_append_right_inj names).1 hpre
  rw [← hrest, ← List.append_assoc] at hentries hspell hall
  exact ⟨e, he, rest, hentries, hspell, hall⟩

/-- On the way of an entry something stands in each directory. -/
lemma Layout.mem_namesIn (h : Layout t₀ base entries t) {e : String × ByteArray} (he : e ∈ entries)
    {name : String} {rest : List String} (hall : Path.names e.1 = names ++ name :: rest) :
    name ∈ t.namesIn (base ++ names) := by
  rw [FileTree.mem_namesIn, List.append_assoc]
  by_cases hrest : rest = []
  · subst hrest
    have hfile := h.file e he
    rw [hall] at hfile
    simp [hfile]
  · have hdirectory := h.directory e he (names ++ [name]) (by simp)
      (hall ▸ prefix_concat names rest name) (by simpa [hall] using Ne.symm hrest)
    simp [hdirectory]

/-- No entry stands below another. -/
lemma Stageable.eq_nil (hstageable : Stageable staging entries) {e e' : String × ByteArray}
    (he : e ∈ entries) (he' : e' ∈ entries) {name : String} {rest : List String}
    (hall : Path.names e.1 = names ++ [name]) (hall' : Path.names e'.1 = names ++ name :: rest) :
    rest = [] := by
  have hpre : Path.names e.1 <+: Path.names e'.1 := by
    rw [hall, hall']
    exact prefix_concat names rest name
  obtain ⟨hsame, _⟩ := hstageable.fit e he e' he' hpre
  rw [hall, hall'] at hsame
  have htail := List.append_cancel_left hsame
  injection htail with _ hnil
  exact hnil.symm

/-- Below a directory the entries are spelled as well. -/
lemma SpelledBelow.next (hspelled : SpelledBelow entries names) (h : Layout t₀ base entries t)
    {name : String} (hdir : t.node? (base ++ (names ++ [name])) = some .directory) :
    SpelledBelow entries (names ++ [name]) := by
  intro e he hpre
  obtain ⟨more, _, hentries, hspell, hall⟩ :=
    hspelled.names_eq he ((List.prefix_append ..).trans hpre)
  rw [hall] at hpre
  obtain ⟨rest, hrest⟩ := (List.prefix_append_right_inj names).1 hpre
  rw [← hrest, ← List.append_assoc] at hentries hspell hall
  refine ⟨rest, ?_, hentries, hspell⟩
  rintro rfl
  have hfile := h.file e he
  rw [hall, List.append_nil, hdir] at hfile
  cases hfile

/-- What a listing finds: the entries below names, by the names behind those. -/
def Finds (entries : List (String × ByteArray)) (names listed : List String) (file : String) : Prop :=
  ∃ more, (∃ e ∈ entries, Path.names e.1 = names ++ more) ∧ file = FileTree.spelled (listed ++ more)

/-- What is found by one name of a directory is not found by another. -/
lemma Finds.unique (hspelled : SpelledBelow entries names) {listed : List String}
    (hlisted : FileTree.AreEntries listed) {name name' file : String}
    (h : Finds entries (names ++ [name]) (listed ++ [name]) file)
    (h' : Finds entries (names ++ [name']) (listed ++ [name']) file) : name = name' := by
  have hentries : ∀ {name more}, (∃ e ∈ entries, Path.names e.1 = names ++ [name] ++ more) →
      FileTree.AreEntries (listed ++ [name] ++ more) := by
    rintro name more ⟨e, he, hall⟩
    rw [List.append_assoc] at hall ⊢
    obtain ⟨_, _, hmore, _, hall'⟩ := hspelled.names_eq he (hall ▸ List.prefix_append ..)
    rw [← List.append_cancel_left (hall.symm.trans hall')] at hmore
    exact hlisted.append hmore.of_append_right
  obtain ⟨more, he, rfl⟩ := h
  obtain ⟨more', he', hfile⟩ := h'
  have hsame := FileTree.eq_of_spelled (hentries he) (hentries he') hfile
  rw [List.append_assoc, List.append_assoc] at hsame
  exact (List.cons.inj (List.append_cancel_left hsame)).1

/-- Where an entry stands itself, it is all that is found. -/
lemma Stageable.finds_entry (hstageable : Stageable staging entries) {e : String × ByteArray}
    (he : e ∈ entries) {name : String} (hall : Path.names e.1 = names ++ [name])
    (listed : List String) (file : String) :
    file ∈ [FileTree.spelled (listed ++ [name])] ↔
      Finds entries (names ++ [name]) (listed ++ [name]) file := by
  rw [List.mem_singleton]
  constructor
  · rintro rfl
    exact ⟨[], ⟨e, he, by rw [hall, List.append_nil]⟩, by rw [List.append_nil]⟩
  · rintro ⟨more, ⟨e', he', hall'⟩, rfl⟩
    rw [List.append_assoc] at hall'
    have hnil : more = [] := hstageable.eq_nil he he' hall hall'
    rw [hnil, List.append_nil]

/-- The files below a staged directory are the entries below its names. -/
lemma Layout.filesBelow (h : Layout t₀ base entries t) (hprivate : Private t₀ staging base)
    (hstageable : Stageable staging entries) :
    ∀ {names : List String} (fuel : Nat) {listed : List String}, FileTree.AreEntries listed →
      names ≠ [] → SpelledBelow entries names → (∃ e ∈ entries, names <+: Path.names e.1) →
      (∀ e ∈ entries, ∀ more, Path.names e.1 = names ++ more → more.length ≤ fuel) →
      ∃ found,
        Assembly.filesBelow t fuel (Path.join staging (FileTree.spelled names)) listed = .ok found ∧
        found.Nodup ∧ ∀ file, file ∈ found ↔ Finds entries names listed file
  | names, 0, listed, _, _, hspelled, ⟨e, he, hpre⟩, hfuel => by
    obtain ⟨more, hmore, _, _, hall⟩ := hspelled.names_eq he hpre
    exact absurd (List.length_eq_zero_iff.1 (Nat.le_zero.1 (hfuel e he more hall))) hmore
  | names, fuel + 1, listed, hlisted, hne, hspelled, ⟨e, he, hpre⟩, hfuel => by
    obtain ⟨more, hmore, hentries, hspell, _⟩ := hspelled.names_eq he hpre
    obtain ⟨hlocate, hdir⟩ :=
      h.directory_of_spelled hprivate hstageable hentries hne hmore he hspell
    -- a name is the last one of an entry, or it goes on to a directory with more of them
    have hstep : ∀ name ∈ t.namesIn (base ++ names), ∃ part,
        Assembly.listStep t fuel (Path.join staging (FileTree.spelled names)) listed name =
          .ok part ∧ part.Nodup ∧
        ∀ file, file ∈ part ↔ Finds entries (names ++ [name]) (listed ++ [name]) file := by
      intro name hname
      obtain ⟨e₁, he₁, rest, hentries₁, hspell₁, hall₁⟩ := h.entry_of_mem hspelled hname
      have hpath : Path.join (Path.join staging (FileTree.spelled names)) name = _ :=
        hentries₁.of_append_left.join_name hne
      rw [Assembly.listStep, hpath]
      by_cases hnil : rest = []
      · subst hnil
        rw [List.append_nil] at hspell₁ hall₁
        rw [← hspell₁, h.entryIsDirectory_file hprivate hstageable he₁]
        exact ⟨_, rfl, List.nodup_singleton _, hstageable.finds_entry he₁ hall₁ listed⟩
      · obtain ⟨hlocate₁, hdir₁⟩ :=
          h.directory_of_spelled hprivate hstageable hentries₁ (by simp) hnil he₁ hspell₁
        rw [if_pos (FileTree.entryIsDirectory_iff.2
          ⟨_, FileTree.locateEntry_of_locate hlocate₁, hdir₁⟩)]
        have hname : FileTree.AreEntries [name] := hentries₁.of_append_left.of_append_right
        refine filesBelow h hprivate hstageable fuel (hlisted.append hname) (by simp)
          (hspelled.next h hdir₁) ⟨e₁, he₁, hall₁ ▸ List.prefix_append ..⟩ fun e' he' more' hall' => ?_
        have hshorter := hfuel e' he' (name :: more') (by simpa using hall')
        simpa using hshorter
    obtain ⟨parts, hfound, hforall⟩ :=
      Assembly.filesBelow_of_list
        (FileTree.listEntry_of_locate (FileTree.locateEntry_of_locate hlocate) hdir) hstep
    refine ⟨parts.flatten, hfound, Assembly.nodup_flatten_of_forall₂ hforall
      (FileTree.nodup_namesIn t _) (Finds.unique hspelled hlisted), fun file => ?_⟩
    rw [Assembly.mem_flatten_of_forall₂ (hforall.imp fun _ _ h => h.2)]
    constructor
    · rintro ⟨name, _, more', ⟨e', he', hall'⟩, rfl⟩
      exact ⟨name :: more', ⟨e', he', by simpa using hall'⟩, by simp⟩
    · rintro ⟨more', ⟨e', he', hall'⟩, rfl⟩
      obtain ⟨more'', hmore'', _, _, hall''⟩ :=
        hspelled.names_eq he' (hall' ▸ List.prefix_append ..)
      rw [List.append_cancel_left (hall'.symm.trans hall'')]
      obtain ⟨name, rest, rfl⟩ := List.exists_cons_of_ne_nil hmore''
      exact ⟨name, h.mem_namesIn he' hall'', rest, ⟨e', he', by simpa using hall''⟩, by simp⟩

/-! ## The frame -/

/-- The directory of the frame can stand in a directory. -/
lemma areEntries_frame : FileTree.AreEntries [frameDirectory] := by
  intro name hname
  rw [List.mem_singleton.1 hname]
  exact ⟨⟨by decide, by decide, by decide⟩, by decide⟩

/-- It is spelled by its only name. -/
lemma spelled_frame : FileTree.spelled [frameDirectory] = frameDirectory := by
  simp [FileTree.spelled]

/-- Entries lie no deeper than a listing goes. -/
lemma Stageable.depth (hstageable : Stageable staging entries) {e : String × ByteArray}
    (he : e ∈ entries) {more : List String} (hall : Path.names e.1 = names ++ more) :
    more.length ≤ Assembly.maxDepth := by
  have hlen := Path.length_names_le (Path.join staging e.1)
  have hsize := hstageable.size e he
  rw [Path.names_join (hstageable.isFilePath e he).isAbsolute, hall] at hlen
  simp only [List.length_append] at hlen
  rw [Assembly.maxDepth]
  omega

/-- Without files of a frame there is no directory of the frame. -/
lemma Layout.frame_missing (h : Layout t₀ base entries t) (hprivate : Private t₀ staging base)
    (hnone : ∀ e ∈ entries, ¬ [frameDirectory] <+: Path.names e.1) :
    t.isDirectory (Path.join staging frameDirectory) = false := by
  have hvacant : t.node? (base ++ [frameDirectory]) = none := by
    by_contra hnode
    obtain ⟨e, he, hpre⟩ := h.only [frameDirectory] (by simp) hnode
    exact hnone e he hpre
  have hrel : Path.isAbsolute frameDirectory = false := spelled_frame ▸ areEntries_frame.isAbsolute
  have hends : Path.EndsIn frameDirectory [] frameDirectory := by
    have : Path.EndsIn (FileTree.spelled ([] ++ [frameDirectory])) [] frameDirectory :=
      areEntries_frame.endsIn
    rwa [List.nil_append, spelled_frame] at this
  by_cases hfits : FileTree.Fits (Path.join staging frameDirectory)
  · have hentry : t.EntryIn (Path.join staging frameDirectory) base frameDirectory := by
      refine ⟨hfits, (areEntries_frame frameDirectory (by simp)).1, by decide +kernel, _,
        hends.join hrel, ?_⟩
      rw [List.append_nil]
      exact h.enters hprivate hrel
    exact hentry.isDirectory_vacant hvacant
  · rw [FileTree.isDirectory, FileTree.stat]
    rcases hlocate : t.locate (Path.join staging frameDirectory) with e | place
    · rfl
    · exact absurd (FileTree.walks_of_locate hlocate).1 hfits

/-- The jobs of the frame of a staged pack are those of its files. -/
lemma Layout.frameJobsIn (h : Layout t₀ base entries t) (hprivate : Private t₀ staging base)
    (hstageable : Stageable staging entries) (hspelled : SpelledBelow entries [frameDirectory])
    {files : List String} (hsorted : files.Pairwise (· ≤ ·)) (hnodup : files.Nodup)
    (hnul : ∀ file ∈ files, Path.hasNul file = false)
    (hfiles : ∀ file, file ∈ files ↔ Finds entries [frameDirectory] [] file) :
    Assembly.frameJobsIn t (some (Path.join staging frameDirectory)) =
      .ok (files.map (Assembly.frameJob (Path.join staging frameDirectory))) := by
  by_cases hany : ∃ e ∈ entries, [frameDirectory] <+: Path.names e.1
  · have hnone : FileTree.AreEntries [] := fun _ hname => nomatch hname
    obtain ⟨found, hfound, hfoundNodup, hmem⟩ := h.filesBelow hprivate hstageable
      Assembly.maxDepth hnone (by simp) hspelled hany fun e he more hall => hstageable.depth he hall
    rw [spelled_frame] at hfound
    obtain ⟨e, he, hpre⟩ := hany
    obtain ⟨more, hmore, hentries, hspell, _⟩ := hspelled.names_eq he hpre
    obtain ⟨hlocate, hdir⟩ :=
      h.directory_of_spelled hprivate hstageable hentries (by simp) hmore he hspell
    rw [spelled_frame] at hlocate
    have hisDirectory : t.isDirectory (Path.join staging frameDirectory) = true :=
      FileTree.isDirectory_iff.2 ⟨_, hlocate, hdir⟩
    -- the same files are found, and both lists are without repetition
    have hperm : found.Perm files := (List.perm_ext_iff_of_nodup hfoundNodup hnodup).2
      fun file => (hmem file).trans (hfiles file).symm
    have hlist : Assembly.listFiles t (Path.join staging frameDirectory) = .ok files := by
      refine Assembly.listFiles_eq_ok.2
        ⟨(FileTree.reaches_of_locate hlocate).hasNul, found, hfound, ?_⟩
      rw [Assembly.map_lossyPath fun file hfile => hnul file (hperm.mem_iff.1 hfile),
        Assembly.inOrder_of_perm hperm hsorted]
    rw [Assembly.frameJobsIn, if_pos hisDirectory, hlist]
    rfl
  · -- no entry is below the frame, so there is no frame and no file of it
    have hnone : files = [] := by
      rw [List.eq_nil_iff_forall_not_mem]
      intro file hfile
      obtain ⟨more, ⟨e, he, hall⟩, _⟩ := (hfiles file).1 hfile
      exact hany ⟨e, he, hall ▸ List.prefix_append ..⟩
    have hmissing := h.frame_missing hprivate fun e he hpre => hany ⟨e, he, hpre⟩
    rw [Assembly.frameJobsIn, if_neg (by simp [hmissing]), hnone]
    rfl

end ConfigPack.Pack
