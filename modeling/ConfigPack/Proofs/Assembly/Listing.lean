import ConfigPack.Assembly.Listing
import ConfigPack.Proofs.Dict
import ConfigPack.Proofs.FileTree.Name
import ConfigPack.Proofs.FileTree.Sound
import ConfigPack.Proofs.FileTree.Spelled
import ConfigPack.Proofs.Result

/-!
# Listed files

In a sound tree the files below a directory are found by the names of entries that lead to them.
They are listed in order (`pairwise_inOrder`) by the texts of these names with single slashes
between them, which are names of entries again (`listFiles_ok`).  Two files are listed by one path
only when the name of one is no text, so a path may stand there more than once.
-/

namespace ConfigPack

namespace FileTree

variable {t : FileTree} {directory place : Place} {name path : String}

/-! ## The names in a directory -/

/-- A place is named in a directory when it stands directly in it. -/
lemma nameIn?_eq_some {place : Place} :
    nameIn? directory place = some name ↔ place = directory ++ [name] := by
  rcases List.eq_nil_or_concat place with rfl | ⟨above, last, rfl⟩
  · simp [nameIn?]
  · rw [List.concat_eq_append]
    by_cases habove : above = directory
    · simp [nameIn?, habove]
    · simp only [nameIn?, List.getLast?_concat, List.dropLast_concat, habove, ↓reduceIte,
        reduceCtorEq, false_iff]
      intro h
      exact habove (List.append_inj' h rfl).1

/-- A list in which repetitions are erased has none. -/
lemma nodup_eraseDups {α : Type} [BEq α] [LawfulBEq α] (items : List α) : items.eraseDups.Nodup := by
  -- the rest gets shorter before its repetitions are erased
  induction hlength : items.length using Nat.strong_induction_on generalizing items with
  | _ length ih =>
    subst hlength
    cases items with
    | nil => exact List.nodup_nil
    | cons item rest =>
      rw [List.eraseDups_cons, List.nodup_cons]
      refine ⟨by simp, ih _ ?_ _ rfl⟩
      exact Nat.lt_succ_of_le (List.length_filter_le ..)

/-- A directory gives each name once. -/
lemma nodup_namesIn (t : FileTree) (directory : Place) : (t.namesIn directory).Nodup :=
  nodup_eraseDups _

/-- The names in a directory are those of its nodes. -/
lemma mem_namesIn_nodes :
    name ∈ t.namesIn directory ↔ ∃ e ∈ t.nodes, e.1 = directory ++ [name] := by
  rw [namesIn, List.mem_eraseDups, List.mem_filterMap]
  simp only [nameIn?_eq_some]

/-- The names in a directory are those under which something stands there. -/
lemma mem_namesIn : name ∈ t.namesIn directory ↔ t.node? (directory ++ [name]) ≠ none := by
  have hne : directory ++ [name] ≠ [] := by simp
  rw [node?, if_neg hne, Ne, List.lookup_eq_none_iff, mem_namesIn_nodes]
  simp only [bne_iff_ne, ne_eq, not_forall, not_not]
  constructor
  · rintro ⟨e, he, hplace⟩
    exact ⟨e, he, hplace.symm⟩
  · rintro ⟨e, he, hplace⟩
    exact ⟨e, he, hplace.symm⟩

/-- Names in the directories of a sound tree are names of entries. -/
lemma Sound.isName_of_mem (h : t.Sound) (hname : name ∈ t.namesIn directory) :
    IsEntryName name ∧ '/' ∉ name.toList := by
  obtain ⟨e, he, hplace⟩ := mem_namesIn_nodes.1 hname
  exact h.isName e he name (by simp [hplace])

/-- They are names of some bytes. -/
lemma Sound.isValid_of_mem (h : t.Sound) (hname : name ∈ t.namesIn directory) :
    FileName.isValid name = true := by
  obtain ⟨e, he, hplace⟩ := mem_namesIn_nodes.1 hname
  exact h.isValid e he name (by simp [hplace])

/-! ## Paths of entries -/

/-- A path that is given as a text is found like that of an entry. -/
lemma locateEntry_eq (hnul : Path.hasNul path = false) : t.locateEntry path = t.locate path := by
  simp only [locateEntry, locate, walk, hnul, Bool.false_eq_true, ↓reduceIte]

/-- What is found by a path is found as an entry. -/
lemma locateEntry_of_locate (h : t.locate path = .ok place) : t.locateEntry path = .ok place := by
  rw [locateEntry_eq (walks_of_locate h).1.hasNul, h]

/-- A path names a directory when it leads to one. -/
lemma isDirectory_iff :
    t.isDirectory path = true ↔
      ∃ place, t.locate path = .ok place ∧ t.node? place = some .directory := by
  constructor
  · intro h
    rw [isDirectory] at h
    split at h
    next hstat =>
      obtain ⟨place, hlocate, hnode⟩ := Result.bind_eq_ok.1 hstat
      refine ⟨place, hlocate, ?_⟩
      split at hnode
      next hdir =>
        cases hnode
        exact hdir
      next => cases hnode
    next => cases h
  · rintro ⟨place, hlocate, hdir⟩
    simp only [isDirectory, stat, hlocate, bind, Except.bind, hdir]
    rfl

/-- The path of an entry names a directory when it leads to one. -/
lemma entryIsDirectory_iff :
    t.entryIsDirectory path = true ↔
      ∃ place, t.locateEntry path = .ok place ∧ t.node? place = some .directory := by
  constructor
  · intro h
    rw [entryIsDirectory] at h
    split at h
    next place hlocate =>
      refine ⟨place, hlocate, ?_⟩
      split at h
      next hdir => exact hdir
      next => cases h
    next => cases h
  · rintro ⟨place, hlocate, hdir⟩
    simp only [entryIsDirectory, hlocate, hdir]

/-- For a path that is given as a text both ask the same. -/
lemma entryIsDirectory_eq (hnul : Path.hasNul path = false) :
    t.entryIsDirectory path = t.isDirectory path := by
  rw [Bool.eq_iff_iff, entryIsDirectory_iff, isDirectory_iff, locateEntry_eq hnul]

/-- The bytes of the file that the path of an entry names. -/
def readEntry (tree : FileTree) (path : String) : Except IoError ByteArray := do
  tree.readAt (← tree.locateEntry path)

/-- For a path that is given as a text they are what is read. -/
lemma readEntry_eq (hnul : Path.hasNul path = false) : t.readEntry path = t.read path := by
  rw [readEntry, read, locateEntry_eq hnul]

/-- A directory is listed. -/
lemma listEntry_of_locate (hlocate : t.locateEntry path = .ok place)
    (hdir : t.node? place = some .directory) : t.listEntry path = .ok (t.namesIn place) := by
  simp only [listEntry, hlocate, bind, Except.bind, hdir]
  rfl

/-- A directory that is listed is there. -/
lemma listEntry_ok {found : List String} (h : t.listEntry path = .ok found) :
    ∃ place, t.locateEntry path = .ok place ∧ t.node? place = some .directory ∧
      found = t.namesIn place := by
  rw [listEntry] at h
  obtain ⟨place, hlocate, h⟩ := Result.bind_eq_ok.1 h
  split at h
  next hdir =>
    cases h
    exact ⟨place, hlocate, hdir, rfl⟩
  next => cases h

/-! ## The texts of names -/

/-- Names of entries with the bytes of some name each. -/
def AreValid (names : List String) : Prop := ∀ name ∈ names, FileName.isValid name = true

/-- The texts of names of entries are names of entries. -/
lemma AreEntries.lossy {names : List String} (h : AreEntries names) (hvalid : AreValid names) :
    AreEntries (names.map FileName.lossy) := by
  intro text htext
  obtain ⟨name, hname, rfl⟩ := List.mem_map.1 htext
  exact FileName.isEntryName_lossy (hvalid name hname) (h name hname).1 (h name hname).2

/-- The text of a path of names is the path of their texts. -/
lemma AreEntries.lossyPath_spelled {names : List String} (h : AreEntries names)
    (hne : names ≠ []) :
    FileName.lossyPath (spelled names) = spelled (names.map FileName.lossy) := by
  rw [FileName.lossyPath, spelled, Path.segments_intercalate hne h.slash]
  split
  next => rfl
  next hnul =>
    -- in a path that is a text each name is one
    rw [Path.hasNul_intercalate, List.any_eq_true, not_exists] at hnul
    have hsame : names.map FileName.lossy = names := by
      conv_rhs => rw [← List.map_id names]
      refine List.map_congr_left fun name hname => FileName.lossy_of_text ?_
      exact eq_false_of_ne_true fun he => hnul name ⟨hname, he⟩
    rw [hsame, spelled]

end FileTree

namespace Assembly

variable {t : FileTree}

/-! ## Finding -/

/-- The steps of a listing. -/
def listStep (tree : FileTree) (fuel : Nat) (directory : String) (names : List String)
    (name : String) : Except AssemblyError (List String) :=
  if tree.entryIsDirectory (Path.join directory name) then
    filesBelow tree fuel (Path.join directory name) (names ++ [name])
  else .ok ["/".intercalate (names ++ [name])]

/-- A listing takes one step for each name of the directory. -/
lemma filesBelow_succ (tree : FileTree) (fuel : Nat) (directory : String) (names : List String) :
    filesBelow tree (fuel + 1) directory names = (do
      let found ← (tree.listEntry directory).mapError (.io directory)
      let parts ← found.mapM (listStep tree fuel directory names)
      return parts.flatten) := rfl

/-- A listing goes through the names of a directory. -/
lemma filesBelow_of_list {directory : String} {fuel : Nat} {names found : List String}
    {P : String → List String → Prop} (hlist : t.listEntry directory = .ok found)
    (hstep : ∀ name ∈ found, ∃ part,
      listStep t fuel directory names name = .ok part ∧ P name part) :
    ∃ parts, filesBelow t (fuel + 1) directory names = .ok parts.flatten ∧
      List.Forall₂ P found parts := by
  obtain ⟨parts, hparts, hforall⟩ := Result.exists_mapM hstep
  refine ⟨parts, ?_, hforall⟩
  rw [filesBelow_succ, hlist]
  simp only [Except.mapError, bind, Except.bind, hparts]
  rfl

/-- The members of lists that are given one by one. -/
lemma mem_flatten_of_forall₂ {α β : Type} {S : α → β → Prop} {items : List α}
    {parts : List (List β)}
    (h : List.Forall₂ (fun item part => ∀ x, x ∈ part ↔ S item x) items parts) {x : β} :
    x ∈ parts.flatten ↔ ∃ item ∈ items, S item x := by
  induction h with
  | nil => simp
  | cons hpart _ ih => rw [List.flatten_cons, List.mem_append, hpart, ih, List.exists_mem_cons_iff]

/-- Lists without repetitions that have no members in common have none together. -/
lemma nodup_flatten_of_forall₂ {α β : Type} {S : α → β → Prop} {items : List α}
    {parts : List (List β)}
    (h : List.Forall₂ (fun item part => part.Nodup ∧ ∀ x, x ∈ part ↔ S item x) items parts)
    (hnodup : items.Nodup) (hunique : ∀ {a b x}, S a x → S b x → a = b) :
    parts.flatten.Nodup := by
  induction h with
  | nil => exact .nil
  | @cons item part items parts hpart hparts ih =>
    obtain ⟨hnot, hnodup⟩ := List.nodup_cons.1 hnodup
    rw [List.flatten_cons, List.nodup_append]
    refine ⟨hpart.1, ih hnodup, ?_⟩
    rintro x hx _ hx' rfl
    obtain ⟨other, hother, hS⟩ := (mem_flatten_of_forall₂ (hparts.imp fun _ _ h => h.2)).1 hx'
    exact hnot (hunique ((hpart.2 x).1 hx) hS ▸ hother)

/-- Files are found by names of entries, each of some bytes. -/
lemma filesBelow_mem (hsound : t.Sound) :
    ∀ {fuel : Nat} {directory : String} {names found : List String},
      filesBelow t fuel directory names = .ok found →
      ∀ file ∈ found, ∃ more, more ≠ [] ∧ FileTree.AreEntries more ∧ FileTree.AreValid more ∧
        file = FileTree.spelled (names ++ more)
  | 0, directory, names, found, h, file, hfile => by
    cases h
    cases hfile
  | fuel + 1, directory, names, found, h, file, hfile => by
    rw [filesBelow_succ] at h
    obtain ⟨listed, hlist, h⟩ := Result.bind_eq_ok.1 h
    obtain ⟨parts, hparts, h⟩ := Result.bind_eq_ok.1 h
    cases h
    -- a file was found in the part of one of the names
    obtain ⟨part, hpart, hfile⟩ := List.mem_flatten.1 hfile
    obtain ⟨name, hname, hstep⟩ := Result.mem_of_mapM hparts hpart
    obtain ⟨place, _, _, rfl⟩ := FileTree.listEntry_ok (Result.mapError_eq_ok.1 hlist)
    have hentry := hsound.isName_of_mem hname
    have hvalid := hsound.isValid_of_mem hname
    rw [listStep] at hstep
    split at hstep
    · obtain ⟨more, _, hmore, hmoreValid, rfl⟩ := filesBelow_mem hsound hstep file hfile
      refine ⟨name :: more, by simp, ?_, ?_, by simp [FileTree.spelled]⟩
      · exact List.forall_mem_cons.2 ⟨hentry, hmore⟩
      · exact List.forall_mem_cons.2 ⟨hvalid, hmoreValid⟩
    · cases hstep
      refine ⟨[name], by simp, ?_, ?_, List.mem_singleton.1 hfile⟩
      · exact List.forall_mem_singleton.2 hentry
      · exact List.forall_mem_singleton.2 hvalid

/-! ## Putting into order -/

/-- A text is put before the first that is not less. -/
lemma insertText_eq (text : String) (texts : List String) :
    insertText text texts = texts.orderedInsert (· ≤ ·) text := by
  induction texts with
  | nil => rfl
  | cons first rest ih => rw [insertText, ih, List.orderedInsert_cons]

/-- Texts are put into order by insertion. -/
lemma inOrder_eq (texts : List String) : inOrder texts = texts.insertionSort (· ≤ ·) := by
  induction texts with
  | nil => rfl
  | cons first rest ih =>
    rw [List.insertionSort_cons, ← ih, ← insertText_eq]
    rfl

/-- Texts in order are not decreasing. -/
lemma pairwise_inOrder (texts : List String) : (inOrder texts).Pairwise (· ≤ ·) :=
  inOrder_eq texts ▸ List.pairwise_insertionSort _ texts

/-- No text is lost or added. -/
lemma perm_inOrder (texts : List String) : (inOrder texts).Perm texts :=
  inOrder_eq texts ▸ List.perm_insertionSort _ texts

/-- The texts in order are the same. -/
lemma mem_inOrder {text : String} {texts : List String} : text ∈ inOrder texts ↔ text ∈ texts :=
  (perm_inOrder texts).mem_iff

/-- Texts that are in order are found again. -/
lemma inOrder_of_perm {texts files : List String} (hperm : texts.Perm files)
    (hsorted : files.Pairwise (· ≤ ·)) : inOrder texts = files :=
  ((perm_inOrder texts).trans hperm).eq_of_pairwise' (pairwise_inOrder texts) hsorted

/-- The order in which texts are given does not matter. -/
lemma inOrder_congr {texts texts' : List String} (h : texts.Perm texts') :
    inOrder texts = inOrder texts' :=
  inOrder_of_perm (h.trans (perm_inOrder texts').symm) (pairwise_inOrder texts')

/-! ## Listing -/

/-- The path of a text is its own text. -/
lemma map_lossyPath {files : List String} (h : ∀ file ∈ files, Path.hasNul file = false) :
    files.map FileName.lossyPath = files := by
  conv_rhs => rw [← List.map_id files]
  refine List.map_congr_left fun file hfile => ?_
  rw [FileName.lossyPath, h file hfile]
  rfl

/-- A directory whose path has a zero character is not listed. -/
lemma listFiles_of_hasNul {directory : String} (hnul : Path.hasNul directory = true) :
    listFiles t directory = .error (.io directory .nulInName) := by
  rw [listFiles, hnul]
  rfl

/-- Else what is found is listed by its texts, in order. -/
lemma listFiles_of_text {directory : String} (hnul : Path.hasNul directory = false) :
    listFiles t directory = (filesBelow t maxDepth directory []).map fun found =>
      inOrder (found.map FileName.lossyPath) := by
  rw [listFiles, hnul]
  cases filesBelow t maxDepth directory [] <;> rfl

/-- What is listed are the texts of what is found, in order. -/
lemma listFiles_eq_ok {directory : String} {files : List String} :
    listFiles t directory = .ok files ↔ Path.hasNul directory = false ∧ ∃ found,
      filesBelow t maxDepth directory [] = .ok found ∧
      files = inOrder (found.map FileName.lossyPath) := by
  cases hnul : Path.hasNul directory with
  | true =>
    rw [listFiles_of_hasNul hnul]
    exact ⟨fun h => (nomatch h), fun h => nomatch h.1⟩
  | false =>
    rw [listFiles_of_text hnul, Result.map_eq_ok]
    simp only [true_and, eq_comm]

/-- Files are listed in the order of their paths. -/
lemma listFiles_sorted {directory : String} {files : List String}
    (h : listFiles t directory = .ok files) : files.Pairwise (· ≤ ·) := by
  obtain ⟨_, found, _, rfl⟩ := listFiles_eq_ok.1 h
  exact pairwise_inOrder _

/-- The files of a directory are listed by names of entries, which are texts. -/
lemma listFiles_ok (hsound : t.Sound) {directory : String} {files : List String}
    (h : listFiles t directory = .ok files) :
    t.isDirectory directory = true ∧ files.Pairwise (· ≤ ·) ∧
      ∀ file ∈ files, ∃ names, names ≠ [] ∧ FileTree.AreEntries names ∧
        Path.hasNul file = false ∧ file = FileTree.spelled names := by
  obtain ⟨hnul, found, hfound, rfl⟩ := listFiles_eq_ok.1 h
  refine ⟨?_, pairwise_inOrder _, fun file hfile => ?_⟩
  · have hdepth : maxDepth = 4095 + 1 := rfl
    rw [hdepth, filesBelow_succ] at hfound
    obtain ⟨listed, hlist, _⟩ := Result.bind_eq_ok.1 hfound
    obtain ⟨place, hlocate, hdir, _⟩ := FileTree.listEntry_ok (Result.mapError_eq_ok.1 hlist)
    rw [FileTree.locateEntry_eq hnul] at hlocate
    exact FileTree.isDirectory_iff.2 ⟨place, hlocate, hdir⟩
  · obtain ⟨path, hpath, rfl⟩ := List.mem_map.1 (mem_inOrder.1 hfile)
    obtain ⟨names, hne, hentries, hvalid, rfl⟩ := filesBelow_mem hsound hfound path hpath
    rw [List.nil_append, hentries.lossyPath_spelled hne]
    refine ⟨_, by simpa using hne, hentries.lossy hvalid, ?_, rfl⟩
    rw [FileTree.spelled, Path.hasNul_intercalate, List.any_eq_false]
    intro text htext
    obtain ⟨name, hname, rfl⟩ := List.mem_map.1 htext
    rw [FileName.hasNul_lossy (hvalid name hname)]
    exact Bool.false_ne_true

end Assembly

end ConfigPack
