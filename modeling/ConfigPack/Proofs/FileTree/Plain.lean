import ConfigPack.Proofs.Assembly.Listing
import ConfigPack.Proofs.FileTree.Pave

/-!
# Plain trees

A plain tree is one that directories and files alone make up: everything stands in a directory, and
under a name that a path can hold.  What stands below a directory of a plain tree is
found by taking its names one in the other, as long as the path is not too long (`locate_pathTo`);
and only so is it seen to be a directory (`entryIsDirectory_pathTo`).
-/

namespace ConfigPack.FileTree

variable {t : FileTree} {directory : String} {base place : Place} {name : String}
  {names front : List String}

/-- A tree of directories and files under names that are texts and not too long. -/
structure Plain (t : FileTree) : Prop extends Sound t where
  linkFree : t.LinkFree []
  taken : ∀ e ∈ t.nodes, ∀ name ∈ e.1, Path.hasNul name = false ∧ name.utf8ByteSize ≤ maxName

/-! ## Above and below -/

/-- On the way to what stands somewhere there is a directory at every place before it. -/
lemma Sound.directory_of_prefix (h : t.Sound) (hpre : front <+: names) (hne : front ≠ names)
    (hnode : t.node? (base ++ names) ≠ none) : t.node? (base ++ front) = some .directory := by
  obtain ⟨more, rfl⟩ := hpre
  induction more using List.reverseRecOn with
  | nil => exact absurd (List.append_nil front).symm hne
  | append_singleton more last ih =>
    rw [← List.append_assoc, ← List.append_assoc] at hnode
    have hdir := h.parent _ _ hnode
    rw [List.append_assoc] at hdir
    by_cases hnil : more = []
    · rwa [hnil, List.append_nil] at hdir
    · exact ih (by simpa using hnil) (by simp [hdir])

/-- Names that lead from a place to a node are among the names of a node. -/
lemma exists_mem_nodes (hnode : t.node? (base ++ names) ≠ none) (hname : name ∈ names) :
    ∃ e ∈ t.nodes, name ∈ e.1 := by
  obtain ⟨node, hnode⟩ := Option.ne_none_iff_exists'.1 hnode
  have hne : base ++ names ≠ [] := by
    intro e
    rw [(List.append_eq_nil_iff.1 e).2] at hname
    cases hname
  exact ⟨_, mem_nodes hne hnode, List.mem_append_right _ hname⟩

/-- In a sound tree the names of a place are names of entries. -/
lemma Sound.areEntries (h : t.Sound) (hnode : t.node? (base ++ names) ≠ none) :
    AreEntries names := by
  intro name hname
  obtain ⟨e, he, hmem⟩ := exists_mem_nodes hnode hname
  exact h.isName e he name hmem

/-- In a plain tree they are texts as well. -/
lemma Plain.areNames (h : t.Plain) (hnode : t.node? (base ++ names) ≠ none) : AreNames names := by
  intro name hname
  obtain ⟨e, he, hmem⟩ := exists_mem_nodes hnode hname
  obtain ⟨hnul, hsize⟩ := h.taken e he name hmem
  exact ⟨(h.isName e he name hmem).1, (FileName.size_of_text hnul).trans_le hsize⟩

/-- The names of a node are texts. -/
lemma Plain.hasNul_of_mem (h : t.Plain) (hnode : t.node? (base ++ names) ≠ none)
    (hname : name ∈ names) : Path.hasNul name = false := by
  obtain ⟨e, he, hmem⟩ := exists_mem_nodes hnode hname
  exact (h.taken e he name hmem).1

/-- The path that they spell is a text. -/
lemma Plain.hasNul_spelled (h : t.Plain) (hnode : t.node? (base ++ names) ≠ none) :
    Path.hasNul (spelled names) = false := by
  rw [spelled, Path.hasNul_intercalate, List.any_eq_false]
  exact fun name hname => Bool.eq_false_iff.1 (h.hasNul_of_mem hnode hname)

/-! ## Names taken one in the other -/

/-- The path to what names lead to from a directory: each is taken in the one before it. -/
def pathTo (directory : String) (names : List String) : String := names.foldl Path.join directory

@[simp] lemma pathTo_nil (directory : String) : pathTo directory [] = directory := rfl

/-- The path to several names goes through the first one. -/
lemma pathTo_cons (directory name : String) (names : List String) :
    pathTo directory (name :: names) = pathTo (Path.join directory name) names := rfl

/-- The path goes on from what the first names lead to. -/
lemma pathTo_append (directory : String) (names rest : List String) :
    pathTo directory (names ++ rest) = pathTo (pathTo directory names) rest :=
  List.foldl_append ..

/-- The last name is taken last. -/
lemma pathTo_concat (directory : String) (names : List String) (name : String) :
    pathTo directory (names ++ [name]) = Path.join (pathTo directory names) name :=
  pathTo_append ..

/-- The first name of entries is one. -/
lemma AreEntries.head (h : AreEntries (name :: names)) : AreEntries [name] :=
  fun _ hx => h _ (List.mem_singleton.1 hx ▸ List.mem_cons_self)

/-- The name of an entry is a relative path. -/
lemma AreEntries.isAbsolute_head (h : AreEntries (name :: names)) :
    Path.isAbsolute name = false := by
  simpa [spelled] using h.head.isAbsolute

/-- So are the others. -/
lemma AreEntries.tail (h : AreEntries (name :: names)) : AreEntries names :=
  fun x hx => h x (List.mem_cons_of_mem _ hx)

/-- The path to names has them behind those of the directory. -/
lemma AreEntries.names_pathTo (h : AreEntries names) :
    Path.names (pathTo directory names) = Path.names directory ++ names := by
  induction names generalizing directory with
  | nil => simp
  | cons name names ih =>
    have hnames : Path.names name = [name] := by simpa [spelled] using h.head.names_spelled
    rw [pathTo_cons, ih h.tail, Path.names_join h.isAbsolute_head, hnames, List.append_assoc]
    rfl

/-- It is absolute when the directory is. -/
lemma AreEntries.isAbsolute_pathTo (h : AreEntries names) :
    Path.isAbsolute (pathTo directory names) = Path.isAbsolute directory := by
  induction names generalizing directory with
  | nil => rfl
  | cons name names ih => rw [pathTo_cons, ih h.tail, Path.isAbsolute_join h.isAbsolute_head]

/-- So it starts where the directory does. -/
lemma AreEntries.start_pathTo (h : AreEntries names) (place : Place) :
    start place (pathTo directory names) = start place directory :=
  start_eq h.isAbsolute_pathTo

/-- Every name makes a path longer. -/
lemma AreEntries.size_pathTo (h : AreEntries names) (directory : String) :
    directory.utf8ByteSize + names.length ≤ (pathTo directory names).utf8ByteSize := by
  induction names generalizing directory with
  | nil => simp
  | cons name names ih =>
    have hle := ih h.tail (Path.join directory name)
    have hjoin := Path.utf8ByteSize_le_join directory h.isAbsolute_head
    have hpos : name.utf8ByteSize ≠ 0 := by
      rw [Ne, String.utf8ByteSize_eq_zero_iff]
      exact (h name List.mem_cons_self).1.ne_empty
    rw [pathTo_cons, List.length_cons]
    omega

/-- It has no zero characters. -/
lemma Plain.hasNul_pathTo (h : t.Plain) (hnul : Path.hasNul directory = false)
    (hnode : t.node? (base ++ names) ≠ none) : Path.hasNul (pathTo directory names) = false := by
  have hentries := h.areEntries hnode
  have htaken : ∀ name ∈ names, Path.hasNul name = false := fun _ => h.hasNul_of_mem hnode
  clear hnode
  induction names generalizing directory with
  | nil => exact hnul
  | cons name names ih =>
    refine ih ?_ hentries.tail fun x hx => htaken x (List.mem_cons_of_mem _ hx)
    rw [Path.hasNul_join hentries.isAbsolute_head, hnul, htaken name List.mem_cons_self]
    rfl

/-! ## What is found there -/

/-- Without links a walk to a directory goes through directories alone. -/
lemma Walks.enters {links : Nat} {goal : Place} {steps : List String} {landing : Landing}
    (hfree : t.LinkFree []) (hdir : t.node? goal = some .directory)
    (h : t.Walks true links place steps landing) :
    landing = .found goal → t.Enters place (Path.proper steps) goal := by
  induction h with
  | arrive =>
    intro e
    cases e
    exact .here
  | stay htrivial _ ih =>
    rw [Path.proper_cons_trivial _ htrivial]
    exact ih
  | up _ ih =>
    rw [Path.proper_cons _ (by decide)]
    exact fun e => .up (ih e)
  | vacant =>
    intro e
    cases e
  | enter hentry hsize hnode _ ih =>
    rw [Path.proper_cons _ hentry.not_trivial]
    exact fun e => .down hentry.ne_up hsize hnode (ih e)
  | file _ _ hnode =>
    intro e
    cases e
    rw [hnode] at hdir
    cases hdir
  | stop _ _ hnode => exact absurd hnode (hfree _ _ List.nil_prefix)
  | follow _ _ hnode => exact absurd hnode (hfree _ _ List.nil_prefix)

/-- A path leads to where it is located. -/
lemma leadsTo_of_locate {path : String} (h : t.locate path = .ok place) : t.LeadsTo path place := by
  have hleads := (walks_of_locate h).2.leads
  rwa [Path.proper_steps] at hleads

/-- A directory is found by a path that is not too long. -/
lemma Plain.locate_pathTo (h : t.Plain) (hlocate : t.locate directory = .ok base)
    (hbase : t.node? base = some .directory)
    (hdir : t.node? (base ++ names) = some .directory)
    (hsize : (pathTo directory names).utf8ByteSize < pathLimit) :
    t.locate (pathTo directory names) = .ok (base ++ names) := by
  obtain ⟨hfits, hwalks⟩ := walks_of_locate hlocate
  have hnode : t.node? (base ++ names) ≠ none := by simp [hdir]
  have hentries := h.areEntries hnode
  refine Enters.locate ?_ ⟨?_, h.hasNul_pathTo hfits.hasNul hnode, hsize⟩
  · rw [hentries.names_pathTo, hentries.start_pathTo, ← Path.proper_steps directory]
    refine (hwalks.enters h.linkFree hbase rfl).append ((h.areNames hnode).enters ?_)
    intro front _ hpre
    by_cases hwhole : front = names
    · rwa [hwhole]
    · exact h.directory_of_prefix hpre hwhole hnode
  · intro hempty
    have hlonger := hentries.size_pathTo directory
    have hpos : directory.utf8ByteSize ≠ 0 := by
      rw [Ne, String.utf8ByteSize_eq_zero_iff]
      exact hfits.ne_empty
    rw [hempty, String.utf8ByteSize_empty] at hlonger
    omega

/-- What stands below a directory is seen to be one when it is one and its path is not too long. -/
lemma Plain.entryIsDirectory_pathTo (h : t.Plain) (hlocate : t.locate directory = .ok base)
    (hbase : t.node? base = some .directory) (hnode : t.node? (base ++ names) ≠ none) :
    t.entryIsDirectory (pathTo directory names) = true ↔
      t.node? (base ++ names) = some .directory ∧
        (pathTo directory names).utf8ByteSize < pathLimit := by
  rw [entryIsDirectory_eq (h.hasNul_pathTo (walks_of_locate hlocate).1.hasNul hnode)]
  constructor
  · intro hisDirectory
    obtain ⟨place, hfound, hdir⟩ := isDirectory_iff.1 hisDirectory
    have hentries := h.areEntries hnode
    have hup : ".." ∉ names := fun hm => (hentries _ hm).1.ne_up rfl
    have hleads : t.LeadsTo (pathTo directory names) (base ++ names) := by
      rw [LeadsTo, hentries.names_pathTo, hentries.start_pathTo]
      exact (leadsTo_of_locate hlocate).append (.descend h.linkFree List.nil_prefix hup)
    rw [hleads.unique (leadsTo_of_locate hfound)]
    exact ⟨hdir, (walks_of_locate hfound).1.size⟩
  · rintro ⟨hdir, hsize⟩
    exact isDirectory_iff.2 ⟨_, h.locate_pathTo hlocate hbase hdir hsize, hdir⟩

end ConfigPack.FileTree
