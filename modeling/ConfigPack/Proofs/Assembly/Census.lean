import ConfigPack.Proofs.FileTree.Ground
import ConfigPack.Proofs.FileTree.Plain
import ConfigPack.Proofs.FileTree.Reordered
import Mathlib.Data.List.Perm.Basic

/-!
# What a listing finds

In a plain tree a listing finds what stands in directories whose paths are not too long, each of
them once (`filesBelow_ok`).  It passes over the directories among this, but only over those that it
can look at: where a directory is too far down for its path to be taken, it is listed itself, and
all that is below it is missed.  So all files are found exactly when no directory is too far down
(`listed_iff_isFile`).
-/

namespace ConfigPack.Assembly

open FileTree

variable {t t' : FileTree} {directory : String} {base : Place} {names front : List String}

/-- Names that lead from a place to something other than a directory. -/
def IsFile (t : FileTree) (base : Place) (names : List String) : Prop :=
  ∃ node, t.node? (base ++ names) = some node ∧ node ≠ .directory

/-- The names of a file are names of entries. -/
lemma IsFile.areEntries (h : IsFile t base names) (hsound : t.Sound) : AreEntries names := by
  obtain ⟨node, hnode, _⟩ := h
  have hstands : t.node? (base ++ names) ≠ none := hnode ▸ Option.some_ne_none _
  exact hsound.areEntries hstands

/-- The directory that names lead to can be looked at: its path is not too long. -/
def Near (directory : String) (names : List String) : Prop :=
  (pathTo directory names).utf8ByteSize < pathLimit

/-- What names lead to is listed: it stands in a directory that is near, and it is not such a
directory itself. -/
structure Listed (t : FileTree) (directory : String) (base : Place) (names : List String) : Prop where
  stands : t.node? (base ++ names) ≠ none
  below : ∃ above name, names = above ++ [name] ∧ Near directory above
  far : t.node? (base ++ names) = some .directory → ¬ Near directory names

/-- What is above something near is near. -/
lemma Near.of_prefix (h : Near directory names) (hentries : AreEntries names)
    (hpre : front <+: names) : Near directory front := by
  obtain ⟨more, rfl⟩ := hpre
  have hlonger := hentries.of_append_right.size_pathTo (pathTo directory front)
  rw [← pathTo_append] at hlonger
  rw [Near] at h ⊢
  omega

/-- Nothing is listed below what is listed, nor is a directory that is gone through. -/
lemma Listed.eq_of_prefix (h : Listed t directory base names) (hsound : t.Sound)
    (hpre : front <+: names)
    (hfront : t.node? (base ++ front) = some .directory → ¬ Near directory front) :
    front = names := by
  obtain ⟨above, name, rfl, hnear⟩ := h.below
  rcases List.prefix_concat_iff.1 hpre with e | hpre
  · exact e
  have hentries := hsound.areEntries h.stands
  refine absurd (hnear.of_prefix hentries.of_append_left hpre) (hfront ?_)
  have hshorter : front ≠ above ++ [name] := by
    rintro rfl
    exact absurd hpre.length_le (by simp)
  exact hsound.directory_of_prefix (hpre.trans (List.prefix_append ..)) hshorter h.stands

/-- Lists of names are told by the paths that they spell. -/
lemma forall_spelled_iff {P Q : List String → Prop} (hP : ∀ names, P names → AreEntries names)
    (hQ : ∀ names, Q names → AreEntries names) :
    (∀ file, (∃ names, P names ∧ file = spelled names) ↔ ∃ names, Q names ∧ file = spelled names) ↔
      ∀ names, P names ↔ Q names := by
  constructor
  · intro h names
    constructor
    · intro hnames
      obtain ⟨names', hnames', hspelled⟩ := (h _).1 ⟨names, hnames, rfl⟩
      rwa [eq_of_spelled (hP names hnames) (hQ names' hnames') hspelled]
    · intro hnames
      obtain ⟨names', hnames', hspelled⟩ := (h _).2 ⟨names, hnames, rfl⟩
      rwa [eq_of_spelled (hQ names hnames) (hP names' hnames') hspelled]
  · intro h file
    simp only [h]

/-- What is listed below names. -/
def ListedBelow (t : FileTree) (directory : String) (base : Place) (front : List String)
    (file : String) : Prop :=
  ∃ names, front <+: names ∧ Listed t directory base names ∧ file = spelled names

/-- What is listed below one name of a directory is not listed below another. -/
lemma ListedBelow.unique {name name' file : String} (hsound : t.Sound)
    (h : ListedBelow t directory base (front ++ [name]) file)
    (h' : ListedBelow t directory base (front ++ [name']) file) : name = name' := by
  obtain ⟨names, hpre, hlisted, rfl⟩ := h
  obtain ⟨names', hpre', hlisted', hspelled⟩ := h'
  obtain rfl := eq_of_spelled (hsound.areEntries hlisted.stands)
    (hsound.areEntries hlisted'.stands) hspelled
  have hsame := List.prefix_of_prefix_length_le hpre hpre' (by simp)
  simpa using hsame.eq_of_length (by simp)

section

variable (hplain : t.Plain) (hlocate : t.locate directory = .ok base)
  (hbase : t.node? base = some .directory)

include hplain hlocate hbase

/-- A listing goes through the near directories and gives what is listed below them, each once. -/
lemma filesBelow_ok :
    ∀ (fuel : Nat) {front : List String}, t.node? (base ++ front) = some .directory →
      Near directory front → pathLimit ≤ fuel + (pathTo directory front).utf8ByteSize →
      ∃ found, filesBelow t fuel (pathTo directory front) front = .ok found ∧ found.Nodup ∧
        ∀ file, file ∈ found ↔ ListedBelow t directory base front file
  | 0, front, _, hnear, hfuel => by
    rw [Near] at hnear
    omega
  | fuel + 1, front, hdir, hnear, hfuel => by
    -- what one name adds: a file of its own, or the listing of a directory further down
    have hstep : ∀ name ∈ t.namesIn (base ++ front), ∃ part,
        listStep t fuel (pathTo directory front) front name = .ok part ∧ part.Nodup ∧
          ∀ file, file ∈ part ↔ ListedBelow t directory base (front ++ [name]) file := by
      intro name hname
      rw [mem_namesIn, List.append_assoc] at hname
      have hentries := hplain.areEntries hname
      rw [listStep, ← pathTo_concat]
      by_cases hopen : t.entryIsDirectory (pathTo directory (front ++ [name])) = true
      · obtain ⟨hdir', hnear'⟩ := (hplain.entryIsDirectory_pathTo hlocate hbase hname).1 hopen
        rw [if_pos hopen]
        refine filesBelow_ok fuel hdir' hnear' ?_
        have hlonger := hentries.of_append_right.size_pathTo (pathTo directory front)
        rw [← pathTo_append, List.length_singleton] at hlonger
        omega
      · rw [if_neg hopen]
        have hfar : t.node? (base ++ (front ++ [name])) = some .directory →
            ¬ Near directory (front ++ [name]) :=
          fun hdir' hnear' =>
            hopen ((hplain.entryIsDirectory_pathTo hlocate hbase hname).2 ⟨hdir', hnear'⟩)
        refine ⟨_, rfl, List.nodup_singleton _, fun file => ?_⟩
        rw [List.mem_singleton]
        constructor
        · rintro rfl
          exact ⟨_, List.prefix_rfl, ⟨hname, ⟨front, name, rfl, hnear⟩, hfar⟩, rfl⟩
        · rintro ⟨names, hpre, hlisted, rfl⟩
          rw [hlisted.eq_of_prefix hplain.toSound hpre hfar]
          rfl
    obtain ⟨parts, hparts, hforall⟩ := filesBelow_of_list
      (listEntry_of_locate
        (locateEntry_of_locate (hplain.locate_pathTo hlocate hbase hdir hnear)) hdir) hstep
    refine ⟨parts.flatten, hparts, nodup_flatten_of_forall₂ hforall (nodup_namesIn t _)
      (ListedBelow.unique hplain.toSound), fun file => ?_⟩
    rw [mem_flatten_of_forall₂ (hforall.imp fun _ _ h => h.2)]
    constructor
    · rintro ⟨name, _, names, hpre, hlisted, rfl⟩
      exact ⟨names, (List.prefix_append ..).trans hpre, hlisted, rfl⟩
    · rintro ⟨_, ⟨more, rfl⟩, hlisted, rfl⟩
      cases more with
      | nil =>
        rw [List.append_nil] at hlisted
        exact absurd hnear (hlisted.far hdir)
      | cons name more =>
        have hpre : front ++ [name] <+: front ++ name :: more := ⟨more, by simp⟩
        refine ⟨name, mem_namesIn.2 ?_, _, hpre, hlisted, rfl⟩
        rw [List.append_assoc]
        intro hvacant
        have hnone := hplain.rooted.vacant_below hvacant more
        rw [List.append_assoc, List.append_assoc] at hnone
        exact hlisted.stands hnone

/-- All files are listed, and nothing else, exactly when all directories are near. -/
lemma listed_iff_isFile :
    (∀ names, Listed t directory base names ↔ IsFile t base names) ↔
      ∀ names, t.node? (base ++ names) = some .directory → Near directory names := by
  have hnear : Near directory [] := (walks_of_locate hlocate).1.size
  constructor
  · intro h names
    induction names using List.reverseRecOn with
    | nil => exact fun _ => hnear
    | append_singleton above name ih =>
      intro hdir
      have hstands : t.node? (base ++ (above ++ [name])) ≠ none := hdir ▸ Option.some_ne_none _
      have habove :=
        ih (hplain.directory_of_prefix (List.prefix_append above [name]) (by simp) hstands)
      -- a directory that is far would be listed, and a listed name stands for a file
      by_contra hfar
      have hlisted : Listed t directory base (above ++ [name]) :=
        ⟨hstands, ⟨above, name, rfl, habove⟩, fun _ => hfar⟩
      obtain ⟨node, hnode, hne⟩ := (h _).1 hlisted
      rw [hdir] at hnode
      cases hnode
      exact hne rfl
  · intro h names
    constructor
    · intro hlisted
      obtain ⟨node, hnode⟩ := Option.ne_none_iff_exists'.1 hlisted.stands
      refine ⟨node, hnode, ?_⟩
      rintro rfl
      exact hlisted.far hnode (h names hnode)
    · rintro ⟨node, hnode, hne⟩
      rcases List.eq_nil_or_concat names with rfl | ⟨above, name, rfl⟩
      · rw [List.append_nil, hbase] at hnode
        cases hnode
        exact absurd rfl hne
      · rw [List.concat_eq_append] at hnode ⊢
        have hstands : t.node? (base ++ (above ++ [name])) ≠ none := hnode ▸ Option.some_ne_none _
        refine ⟨hstands, ⟨above, name, rfl, h above ?_⟩, fun hdir => ?_⟩
        · exact hplain.directory_of_prefix (List.prefix_append above [name]) (by simp) hstands
        · rw [hnode] at hdir
          cases hdir
          exact absurd rfl hne

end

/-! ## In any order -/

/-- Below a directory nothing stops a listing: it goes only into what it has seen to be one. -/
lemma exists_listStep (t : FileTree) :
    ∀ (fuel : Nat) (directory : String) (names : List String) (name : String),
      ∃ part, listStep t fuel directory names name = .ok part
  | fuel, directory, names, name => by
    rw [listStep]
    split
    next hopen =>
      cases fuel with
      | zero => exact ⟨[], rfl⟩
      | succ fuel =>
        obtain ⟨place, hlocate, hdir⟩ := entryIsDirectory_iff.1 hopen
        obtain ⟨parts, hparts, _⟩ := filesBelow_of_list (P := fun _ _ => True)
          (listEntry_of_locate hlocate hdir) fun below _ => by
            obtain ⟨part, hpart⟩ :=
              exists_listStep t fuel (Path.join directory name) (names ++ [name]) below
            exact ⟨part, hpart, trivial⟩
        exact ⟨_, hparts⟩
    next => exact ⟨_, rfl⟩

/-- When a step gives a part for each name, a listing is these parts. -/
lemma filesBelow_eq_flatMap {fuel : Nat} {names found : List String} {part : String → List String}
    (hlist : t.listEntry directory = .ok found)
    (hpart : ∀ name, listStep t fuel directory names name = .ok (part name)) :
    filesBelow t (fuel + 1) directory names = .ok (found.flatMap part) := by
  have hparts : found.mapM (listStep t fuel directory names) = .ok (found.map part) := by
    rw [Result.mapM_eq_ok, List.forall₂_map_right_iff, List.forall₂_same]
    exact fun name _ => hpart name
  rw [filesBelow_succ, hlist, List.flatMap_def]
  simp only [Except.mapError, bind, Except.bind, hparts]
  rfl

/-- Directories may give their names in another order. -/
lemma filesBelow_sameListing (h : t.SameNodes t') :
    ∀ (fuel : Nat) (directory : String) (names : List String),
      SameListing (filesBelow t fuel directory names) (filesBelow t' fuel directory names)
  | 0, _, _ => .inr ⟨[], [], rfl, rfl, .refl _⟩
  | fuel + 1, directory, names => by
    rcases h.listEntry directory with ⟨e, he, he'⟩ | ⟨found, found', hfound, hfound', hperm⟩
    · refine .inl ⟨.io directory e, ?_, ?_⟩
      · rw [filesBelow_succ, he]
        rfl
      · rw [filesBelow_succ, he']
        rfl
    have hstep : ∀ name, ∃ part part', listStep t fuel directory names name = .ok part ∧
        listStep t' fuel directory names name = .ok part' ∧ part'.Perm part := by
      intro name
      have hsteps : SameListing (listStep t fuel directory names name)
          (listStep t' fuel directory names name) := by
        rw [listStep, listStep, h.entryIsDirectory]
        split
        · exact filesBelow_sameListing h fuel _ _
        · exact .inr ⟨_, _, rfl, rfl, .refl _⟩
      obtain ⟨part, hpart⟩ := exists_listStep t fuel directory names name
      rcases hsteps with ⟨e, he, _⟩ | hsteps
      · rw [hpart] at he
        cases he
      · exact hsteps
    choose part part' hpart hpart' hparts using hstep
    exact .inr ⟨_, _, filesBelow_eq_flatMap hfound hpart, filesBelow_eq_flatMap hfound' hpart',
      hperm.flatMap fun name _ => hparts name⟩

/-- What is listed does not depend on the order in which directories give their names. -/
lemma listFiles_sameNodes (h : t.SameNodes t') (directory : String) :
    listFiles t' directory = listFiles t directory := by
  cases hnul : Path.hasNul directory with
  | true => rw [listFiles_of_hasNul hnul, listFiles_of_hasNul hnul]
  | false =>
    rw [listFiles_of_text hnul, listFiles_of_text hnul]
    rcases filesBelow_sameListing h maxDepth directory [] with
      ⟨e, he, he'⟩ | ⟨found, found', hfound, hfound', hperm⟩
    · rw [he, he']
    · rw [hfound, hfound', Except.map, Except.map, inOrder_congr (hperm.map FileName.lossyPath)]

end ConfigPack.Assembly
