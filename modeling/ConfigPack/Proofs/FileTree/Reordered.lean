import ConfigPack.FileTree.Canonical
import ConfigPack.Proofs.Assembly.Listing
import Mathlib.Data.List.Dedup

/-!
# Directories in another order

Two trees hold the same nodes when the same stands at each place; then only the order differs in
which a directory gives its names.  Walks never ask for that order, so what a path names is the same
in both trees.  Every order of every directory is that of such a tree (`exists_reordered`).
-/

namespace ConfigPack.FileTree

variable {t t' : FileTree}

/-- The same stands at each place, and paths start at the same place. -/
structure SameNodes (t t' : FileTree) : Prop where
  node : ∀ place, t'.node? place = t.node? place
  workingDirectory : t'.workingDirectory = t.workingDirectory

/-- Two listings that fail alike or give the same texts, each as often. -/
def SameListing {ε : Type} (result result' : Except ε (List String)) : Prop :=
  (∃ e, result = .error e ∧ result' = .error e) ∨
    ∃ texts texts', result = .ok texts ∧ result' = .ok texts' ∧ texts'.Perm texts

namespace SameNodes

/-- The relation goes both ways. -/
lemma symm (h : t.SameNodes t') : t'.SameNodes t :=
  ⟨fun place => (h.node place).symm, h.workingDirectory.symm⟩

/-- A directory gives the same names in both trees. -/
lemma perm_namesIn (h : t.SameNodes t') (place : Place) :
    (t'.namesIn place).Perm (t.namesIn place) := by
  rw [List.perm_ext_iff_of_nodup (nodup_namesIn t' place) (nodup_namesIn t place)]
  intro name
  rw [mem_namesIn, mem_namesIn, h.node]

/-! ## Walks -/

/-- Trees with the same nodes are walked alike. -/
lemma walkFrom (h : t.SameNodes t') (follow : Bool) :
    ∀ (fuel links : Nat) (place : Place) (names : List String),
      t'.walkFrom follow fuel links place names = t.walkFrom follow fuel links place names
  | 0, _, _, _ => rfl
  | _ + 1, _, _, [] => rfl
  | fuel + 1, links, place, name :: rest => by
    simp only [FileTree.walkFrom, h.node, h.walkFrom follow fuel]

/-- So is a path. -/
lemma walk (h : t.SameNodes t') (follow : Bool) (path : String) :
    t'.walk follow path = t.walk follow path := by
  simp only [FileTree.walk, walkNames, h.workingDirectory, h.walkFrom]

/-- It is located at one place. -/
lemma locate (h : t.SameNodes t') (path : String) : t'.locate path = t.locate path := by
  rw [FileTree.locate, FileTree.locate, h.walk]

/-- What is there is the same. -/
lemma stat (h : t.SameNodes t') (path : String) : t'.stat path = t.stat path := by
  simp only [FileTree.stat, h.locate, h.node]

/-- So is whether it is a directory. -/
lemma isDirectory (h : t.SameNodes t') (path : String) :
    t'.isDirectory path = t.isDirectory path := by
  rw [FileTree.isDirectory, FileTree.isDirectory, h.stat]

/-- Whether a place is a file is the same. -/
lemma isFile (h : t.SameNodes t') : t'.isFile = t.isFile := by
  funext path
  rw [FileTree.isFile, FileTree.isFile, h.stat]

/-- Files are read alike. -/
lemma readAt (h : t.SameNodes t') : t'.readAt = t.readAt := by
  funext place
  rw [FileTree.readAt, FileTree.readAt, h.node]

/-- So is what a path names. -/
lemma read (h : t.SameNodes t') (path : String) : t'.read path = t.read path := by
  rw [FileTree.read, FileTree.read, h.locate, h.readAt]

/-- Their texts are the same. -/
lemma readTextAt (h : t.SameNodes t') : t'.readTextAt = t.readTextAt := by
  funext place
  rw [FileTree.readTextAt, FileTree.readTextAt, h.readAt]

/-- So is the text that a path names. -/
lemma readText (h : t.SameNodes t') (path : String) : t'.readText path = t.readText path := by
  rw [FileTree.readText, FileTree.readText, h.locate, h.readTextAt]

/-- Names that are taken one after the other lead to the same place in both trees. -/
lemma resolveFrom (h : t.SameNodes t') :
    ∀ (fuel links : Nat) (place : Place) (names : List String),
      t'.resolveFrom fuel links place names = t.resolveFrom fuel links place names
  | 0, _, _, _ => rfl
  | _ + 1, _, _, [] => rfl
  | fuel + 1, links, place, name :: rest => by
    simp only [FileTree.resolveFrom, h.node, h.resolveFrom fuel]

/-- A path has the same canonical path in both trees. -/
lemma canonical (h : t.SameNodes t') (path : String) : t'.canonical path = t.canonical path := by
  simp only [FileTree.canonical, h.workingDirectory, h.resolveFrom]

/-- The path of an entry leads to the same place in both trees. -/
lemma locateEntry (h : t.SameNodes t') (path : String) :
    t'.locateEntry path = t.locateEntry path := by
  simp only [FileTree.locateEntry, walkNames, h.workingDirectory, h.walkFrom]

/-- It is the path of a directory in both trees or in none. -/
lemma entryIsDirectory (h : t.SameNodes t') (path : String) :
    t'.entryIsDirectory path = t.entryIsDirectory path := by
  simp only [FileTree.entryIsDirectory, h.locateEntry, h.node]

/-- A directory is listed in both trees with the same names, or refused in both. -/
lemma listEntry (h : t.SameNodes t') (path : String) :
    SameListing (t.listEntry path) (t'.listEntry path) := by
  rcases hlist : t.listEntry path with e | found
  · refine .inl ⟨e, rfl, ?_⟩
    rw [FileTree.listEntry] at hlist ⊢
    rw [h.locateEntry]
    rcases Result.bind_eq_error.1 hlist with hlocate | ⟨place, hlocate, hnode⟩
    · rw [hlocate]
      rfl
    · rw [hlocate]
      simp only [bind, Except.bind, h.node]
      split at hnode
      next => cases hnode
      next => exact hnode
  · obtain ⟨place, hlocate, hdir, rfl⟩ := listEntry_ok hlist
    rw [← h.locateEntry] at hlocate
    rw [← h.node] at hdir
    exact .inr ⟨_, _, rfl, listEntry_of_locate hlocate hdir, h.perm_namesIn place⟩

end SameNodes

/-! ## Any order -/

/-- The nodes of a directory in an order of its names. -/
def nodesIn (t : FileTree) (directory : Place) (names : List String) : List (Place × Node) :=
  names.filterMap fun name =>
    (t.node? (directory ++ [name])).map fun node => (directory ++ [name], node)

/-- The tree in which each directory gives its names in an order. -/
def reorder (t : FileTree) (order : Place → List String) : FileTree :=
  { t with nodes :=
      (t.nodes.map fun e => e.1.dropLast).dedup.flatMap fun d => t.nodesIn d (order d) }

variable {order : Place → List String} {directory place : Place} {node : Node} {names : List String}

/-- The nodes of some names are those that stand there. -/
lemma mem_nodesIn : (place, node) ∈ t.nodesIn directory names ↔
    ∃ name ∈ names, place = directory ++ [name] ∧ t.node? place = some node := by
  simp only [nodesIn, List.mem_filterMap, Option.map_eq_some_iff, Prod.mk.injEq]
  constructor
  · rintro ⟨name, hname, _, hnode, rfl, rfl⟩
    exact ⟨name, hname, rfl, hnode⟩
  · rintro ⟨name, hname, rfl, hnode⟩
    exact ⟨name, hname, node, hnode, rfl, rfl⟩

/-- A name stands in a directory that is one of those that are reordered. -/
lemma mem_directories {name : String} (hname : name ∈ t.namesIn directory) :
    directory ∈ (t.nodes.map fun e => e.1.dropLast).dedup := by
  obtain ⟨e, he, hplace⟩ := mem_namesIn_nodes.1 hname
  rw [List.mem_dedup, List.mem_map]
  exact ⟨e, he, by rw [hplace, List.dropLast_concat]⟩

/-- Reordering keeps the nodes. -/
lemma mem_nodes_reorder (horder : ∀ p, (order p).Perm (t.namesIn p)) :
    (place, node) ∈ (t.reorder order).nodes ↔ place ≠ [] ∧ t.node? place = some node := by
  simp only [reorder, List.mem_flatMap, mem_nodesIn]
  constructor
  · rintro ⟨d, _, name, _, rfl, hnode⟩
    exact ⟨by simp, hnode⟩
  · rintro ⟨hne, hnode⟩
    obtain ⟨d, name, rfl⟩ : ∃ d name, place = d ++ [name] :=
      ⟨_, _, (List.dropLast_concat_getLast hne).symm⟩
    have hname : name ∈ t.namesIn d := FileTree.mem_namesIn.2 (by simp [hnode])
    exact ⟨d, mem_directories hname, name, (horder d).mem_iff.2 hname, rfl, hnode⟩

/-- In another order a tree has the same nodes. -/
lemma sameNodes_reorder (horder : ∀ p, (order p).Perm (t.namesIn p)) :
    t.SameNodes (t.reorder order) := by
  refine ⟨fun place => ?_, rfl⟩
  by_cases hne : place = []
  · rw [node?, node?, if_pos hne, if_pos hne]
  apply Option.ext
  intro node
  constructor
  · intro h
    exact ((mem_nodes_reorder horder).1 (mem_nodes hne h)).2
  · intro h
    obtain ⟨node', hnode'⟩ : ∃ node', (t.reorder order).node? place = some node' := by
      rw [← Option.ne_none_iff_exists', node?, if_neg hne, Ne, List.lookup_eq_none_iff]
      intro hnone
      simpa using hnone _ ((mem_nodes_reorder horder).2 ⟨hne, h⟩)
    have hsame := ((mem_nodes_reorder horder).1 (mem_nodes hne hnode')).2
    rw [hnode', ← hsame, h]

/-- Of lists that are put together, only the one of an item may have members. -/
lemma flatMap_eq_of_nodup {α β : Type} {f : α → List β} {a : α} {items : List α}
    (hnodup : items.Nodup) (ha : a ∈ items) (hother : ∀ b ∈ items, b ≠ a → f b = []) :
    items.flatMap f = f a := by
  obtain ⟨front, back, rfl⟩ := List.append_of_mem ha
  obtain ⟨hfront, hback⟩ : a ∉ front ∧ a ∉ back := by
    rw [List.nodup_middle, List.nodup_cons, List.mem_append, not_or] at hnodup
    exact hnodup.1
  have hnil : ∀ part : List α, (∀ b ∈ part, b ∈ front ++ a :: back) → a ∉ part →
      part.flatMap f = [] := by
    intro part hpart hnot
    rw [List.flatMap_eq_nil_iff]
    exact fun b hb => hother b (hpart b hb) fun e => hnot (e ▸ hb)
  rw [List.flatMap_append, List.flatMap_cons, hnil front (by simp_all) hfront,
    hnil back (by simp_all) hback, List.nil_append, List.append_nil]

/-- The names of a directory among the nodes of one. -/
lemma filterMap_nodesIn (hnames : ∀ name ∈ names, t.node? (place ++ [name]) ≠ none) :
    (t.nodesIn place names).filterMap (fun e => nameIn? directory e.1) =
      if place = directory then names else [] := by
  rw [nodesIn, List.filterMap_filterMap]
  split
  next hsame =>
    subst hsame
    conv_rhs => rw [← List.filterMap_some (l := names)]
    refine List.filterMap_congr fun name hname => ?_
    obtain ⟨node, hnode⟩ := Option.ne_none_iff_exists'.1 (hnames name hname)
    simp only [hnode, Option.map_some, Option.bind_some, nameIn?_eq_some]
  next hother =>
    rw [List.filterMap_eq_nil_iff]
    intro name hname
    obtain ⟨node, hnode⟩ := Option.ne_none_iff_exists'.1 (hnames name hname)
    simp only [hnode, Option.map_some, Option.bind_some, Option.eq_none_iff_forall_ne_some,
      ne_eq, nameIn?_eq_some]
    exact fun name' hplace => hother (List.append_inj' hplace rfl).1

/-- A list without repetitions is left alone where they are erased. -/
lemma eraseDups_of_nodup {α : Type} [BEq α] [LawfulBEq α] {items : List α} (h : items.Nodup) :
    items.eraseDups = items := by
  induction items with
  | nil => rfl
  | cons item rest ih =>
    obtain ⟨hitem, hrest⟩ := List.nodup_cons.1 h
    have hkept : (rest.filter fun b => !b == item) = rest := by
      rw [List.filter_eq_self]
      rintro other hother
      have hne : other ≠ item := by
        rintro rfl
        exact hitem hother
      simpa using hne
    rw [List.eraseDups_cons, hkept, ih hrest]

/-- Reordered directories give their names in that order. -/
lemma namesIn_reorder (horder : ∀ p, (order p).Perm (t.namesIn p)) (directory : Place) :
    (t.reorder order).namesIn directory = order directory := by
  have hthere : ∀ d, ∀ name ∈ order d, t.node? (d ++ [name]) ≠ none :=
    fun d name hname => FileTree.mem_namesIn.1 ((horder d).mem_iff.1 hname)
  have hnodup : (order directory).Nodup := (horder directory).nodup_iff.2 (nodup_namesIn t _)
  conv_rhs => rw [← eraseDups_of_nodup hnodup]
  rw [namesIn]
  congr 1
  simp only [reorder, List.filterMap_flatMap, filterMap_nodesIn (hthere _)]
  by_cases hmem : directory ∈ (t.nodes.map fun e => e.1.dropLast).dedup
  · rw [flatMap_eq_of_nodup (List.nodup_dedup _) hmem fun d _ hne => if_neg hne, if_pos rfl]
  · have hnil : order directory = [] := by
      rw [List.eq_nil_iff_forall_not_mem]
      exact fun name hname => hmem (mem_directories ((horder directory).mem_iff.1 hname))
    rw [hnil, List.flatMap_eq_nil_iff]
    intro d hd
    have hother : d ≠ directory := fun e => hmem (e ▸ hd)
    exact if_neg hother

/-- Whatever orders directories may give their names in, they do so in a tree with the same
nodes. -/
lemma exists_reordered (horder : ∀ p, (order p).Perm (t.namesIn p)) :
    ∃ t', t.SameNodes t' ∧ ∀ p, t'.namesIn p = order p :=
  ⟨_, sameNodes_reorder horder, namesIn_reorder horder⟩

end ConfigPack.FileTree
