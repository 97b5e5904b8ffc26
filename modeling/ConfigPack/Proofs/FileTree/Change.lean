import ConfigPack.FileTree.Operations
import ConfigPack.Proofs.FileTree.Walk

/-!
# What file operations change

Making directories fills vacant places of a kind and does nothing else (`Grows`).  What a sequence
of writes has done to a tree is summed up by `Evolves`: directories are only added, links stay or
give way to files, and nothing vanishes.  So what is passed later led to the same place before.
-/

namespace ConfigPack.FileTree

variable {t t' t'' : FileTree}

/-! ## Nodes -/

/-- Where a node is set it is found, and all others are found where they were. -/
lemma lookup_setNode (place q : Place) (node : Node) :
    ∀ nodes : List (Place × Node),
      (setNode place node nodes).lookup q = if q = place then some node else nodes.lookup q
  | [] => by
    by_cases h : q = place
    · simp [setNode, h]
    · have hb : (q == place) = false := by simpa using h
      simp [setNode, List.lookup_cons, h, hb]
  | (p, n) :: rest => by
    have ih := lookup_setNode place q node rest
    by_cases h : q = p
    · subst h
      by_cases hp : q = place <;> simp [setNode, hp]
    · have hb : (q == p) = false := by simpa using h
      by_cases hp : p = place
      · subst hp
        simp [setNode, List.lookup_cons, h, hb]
      · simp [setNode, List.lookup_cons, hp, hb, ih]

/-- What stands at places after a node was put at one. -/
lemma node?_set {place : Place} (hne : place ≠ []) (node : Node) (q : Place) :
    (t.set place node).node? q = if q = place then some node else t.node? q := by
  simp only [node?, set, lookup_setNode]
  by_cases hq : q = []
  · simp [hq, hne.symm]
  · simp [hq]

@[simp] lemma workingDirectory_set (place : Place) (node : Node) :
    (t.set place node).workingDirectory = t.workingDirectory := rfl

/-- The bytes of the file at a place. -/
def content? (t : FileTree) (place : Place) : Option ByteArray :=
  match t.node? place with
  | some (.file data _) => some data
  | _ => none

/-- What a file holds is told by its node. -/
lemma content?_eq_of_node? {place : Place} (h : t'.node? place = t.node? place) :
    t'.content? place = t.content? place := by
  rw [content?, content?, h]

/-- At a place stands what stood there, but a directory may have been made where nothing stood. -/
def Keeps (t t' : FileTree) (p : Place) : Prop :=
  t'.node? p = t.node? p ∨ t.node? p = none ∧ t'.node? p = some .directory

/-- A tree keeps what it has. -/
lemma Keeps.refl (t : FileTree) (p : Place) : t.Keeps t p := .inl rfl

/-- What is kept by two changes is kept by both together. -/
lemma Keeps.trans {p : Place} (h : t.Keeps t' p) (h' : t'.Keeps t'' p) : t.Keeps t'' p := by
  rcases h with e | ⟨e, e'⟩
  · rcases h' with d | ⟨d, d'⟩
    · exact .inl (d.trans e)
    · exact .inr ⟨e ▸ d, d'⟩
  · rcases h' with d | ⟨d, _⟩
    · exact .inr ⟨e, d.trans e'⟩
    · rw [e'] at d
      cases d

/-- No file is made or changed at a place that is kept. -/
lemma Keeps.content? {p : Place} (h : t.Keeps t' p) : t'.content? p = t.content? p := by
  rcases h with e | ⟨e, e'⟩
  · exact content?_eq_of_node? e
  · simp [FileTree.content?, e, e']

/-- A node that is set somewhere else does not matter. -/
lemma keeps_set_of_ne {place q : Place} (hne : place ≠ []) (node : Node) (hq : q ≠ place) :
    t.Keeps (t.set place node) q := by
  refine .inl ?_
  rw [node?_set hne, if_neg hq]

/-! ## Growth -/

/-- Directories were made at vacant places of a kind, and nothing else was done. -/
structure Grows (P : Place → Prop) (t t' : FileTree) : Prop where
  workingDirectory : t'.workingDirectory = t.workingDirectory
  node : ∀ p, t'.node? p = t.node? p ∨
    P p ∧ t.node? p = none ∧ t'.node? p = some .directory

variable {P Q : Place → Prop}

/-- A tree grows by nothing. -/
lemma Grows.refl (t : FileTree) : t.Grows P t := ⟨rfl, fun _ => .inl rfl⟩

/-- Growth goes on. -/
lemma Grows.trans (h : t.Grows P t') (h' : t'.Grows P t'') : t.Grows P t'' := by
  refine ⟨h'.workingDirectory.trans h.workingDirectory, fun p => ?_⟩
  rcases h.node p with e | ⟨hp, e, e'⟩
  · rcases h'.node p with e'' | ⟨hp', e1, e2⟩
    · exact .inl (e''.trans e)
    · exact .inr ⟨hp', e ▸ e1, e2⟩
  · rcases h'.node p with e'' | ⟨_, e1, _⟩
    · exact .inr ⟨hp, e, e''.trans e'⟩
    · rw [e'] at e1
      cases e1

/-- A tree that grows at some places grows at all that these are among. -/
lemma Grows.mono (h : t.Grows P t') (hPQ : ∀ p, P p → Q p) : t.Grows Q t' :=
  ⟨h.workingDirectory, fun p => (h.node p).imp id fun ⟨hp, e⟩ => ⟨hPQ p hp, e⟩⟩

/-- A directory is grown where nothing was. -/
lemma Grows.set_directory {place : Place} (hne : place ≠ []) (hP : P place)
    (hvacant : t.node? place = none) : t.Grows P (t.set place .directory) := by
  refine ⟨rfl, fun q => ?_⟩
  rw [node?_set hne]
  split
  next e =>
    subst e
    exact .inr ⟨hP, hvacant, rfl⟩
  next => exact .inl rfl

/-- Growth makes no links and takes none away. -/
lemma Grows.link_iff (h : t.Grows P t') {p : Place} {target : String} :
    t'.node? p = some (.link target) ↔ t.node? p = some (.link target) := by
  rcases h.node p with e | ⟨_, e, e'⟩
  · rw [e]
  · simp [e, e']

/-- Growth keeps what is not a new directory. -/
lemma Grows.keeps (h : t.Grows P t') (p : Place) : t.Keeps t' p :=
  (h.node p).imp id fun ⟨_, e⟩ => e

/-! ## Links -/

/-- Two trees have the same links, so names lead to the same places. -/
structure SameLinks (t t' : FileTree) : Prop where
  workingDirectory : t'.workingDirectory = t.workingDirectory
  link_iff : ∀ p target, t'.node? p = some (.link target) ↔ t.node? p = some (.link target)

/-- A tree has its own links. -/
lemma SameLinks.refl (t : FileTree) : t.SameLinks t := ⟨rfl, fun _ _ => .rfl⟩

/-- The relation goes both ways. -/
lemma SameLinks.symm (h : t.SameLinks t') : t'.SameLinks t :=
  ⟨h.workingDirectory.symm, fun p target => (h.link_iff p target).symm⟩

/-- It goes on over several changes. -/
lemma SameLinks.trans (h : t.SameLinks t') (h' : t'.SameLinks t'') : t.SameLinks t'' :=
  ⟨h'.workingDirectory.trans h.workingDirectory,
    fun p target => (h'.link_iff p target).trans (h.link_iff p target)⟩

/-- Growth keeps the links. -/
lemma Grows.sameLinks (h : t.Grows P t') : t.SameLinks t' :=
  ⟨h.workingDirectory, fun _ _ => h.link_iff⟩

/-- So does a file where no link was. -/
lemma SameLinks.set_file {place : Place} (hne : place ≠ [])
    (hlink : ∀ target, t.node? place ≠ some (.link target)) (data : ByteArray) (mode : Nat) :
    t.SameLinks (t.set place (.file data mode)) := by
  refine ⟨rfl, fun q target => ?_⟩
  rw [node?_set hne]
  split
  next e =>
    subst e
    constructor
    · intro h
      cases h
    · intro h
      exact absurd h (hlink target)
  next => exact .rfl

/-- With the same links names lead to the same places. -/
lemma SameLinks.leads {place names goal} (h : t.SameLinks t') (hl : t.Leads place names goal) :
    t'.Leads place names goal := by
  induction hl with
  | here => exact .here
  | up _ ih => exact .up ih
  | down ne nl _ ih => exact .down ne (fun target => mt (h.link_iff _ target).1 (nl target)) ih
  | follow ne e _ ih => exact .follow ne ((h.link_iff _ _).2 e) ih

/-- So do paths. -/
lemma SameLinks.leadsTo (h : t.SameLinks t') {path : String} {goal : Place}
    (hl : t.LeadsTo path goal) : t'.LeadsTo path goal := by
  rw [LeadsTo, h.workingDirectory]
  exact h.leads hl

/-- A place that has no links below it still has none. -/
lemma SameLinks.linkFree (h : t.SameLinks t') {base : Place} (hfree : t.LinkFree base) :
    t'.LinkFree base :=
  fun p target hp e => hfree p target hp ((h.link_iff p target).1 e)

/-! ## Evolution -/

/-- How a node may have been changed by writing. -/
def NodeEvolves (before after : Option Node) : Prop :=
  after = before ∨ before = none ∧ after = some .directory ∨
    before ≠ some .directory ∧ ∃ data mode, after = some (.file data mode)

/-- What a sequence of writes may do to a tree. -/
structure Evolves (t t' : FileTree) : Prop where
  workingDirectory : t'.workingDirectory = t.workingDirectory
  node : ∀ p, NodeEvolves (t.node? p) (t'.node? p)

/-- A tree evolves to itself. -/
lemma Evolves.refl (t : FileTree) : t.Evolves t := ⟨rfl, fun _ => .inl rfl⟩

/-- It evolves step by step. -/
lemma Evolves.trans (h : t.Evolves t') (h' : t'.Evolves t'') : t.Evolves t'' := by
  refine ⟨h'.workingDirectory.trans h.workingDirectory, fun p => ?_⟩
  rcases h'.node p with e | ⟨e, e'⟩ | ⟨ne, file⟩
  · rw [e]
    exact h.node p
  · rcases h.node p with d | ⟨_, d⟩ | ⟨_, _, _, d⟩
    · exact .inr (.inl ⟨d ▸ e, e'⟩)
    all_goals
      rw [d] at e
      cases e
  · refine .inr (.inr ⟨fun hd => ?_, file⟩)
    rcases h.node p with d | ⟨d, _⟩ | ⟨d, _⟩
    · exact ne (d ▸ hd)
    · rw [hd] at d
      cases d
    · exact d hd

/-- Growth is one way to evolve. -/
lemma Grows.evolves (h : t.Grows P t') : t.Evolves t' :=
  ⟨h.workingDirectory, fun p => (h.node p).imp id fun ⟨_, e, e'⟩ => .inl ⟨e, e'⟩⟩

/-- A new file is another, where no directory was. -/
lemma Evolves.set_file {place : Place} (hne : place ≠ []) (hdir : t.node? place ≠ some .directory)
    (data : ByteArray) (mode : Nat) : t.Evolves (t.set place (.file data mode)) := by
  refine ⟨rfl, fun q => ?_⟩
  rw [node?_set hne]
  split
  next e =>
    subst e
    exact .inr (.inr ⟨hdir, _, _, rfl⟩)
  next => exact .inl rfl

/-- A link was there before. -/
lemma Evolves.link (h : t.Evolves t') {p : Place} {target : String}
    (e : t'.node? p = some (.link target)) : t.node? p = some (.link target) := by
  rcases h.node p with d | ⟨_, d⟩ | ⟨_, _, _, d⟩
  · rw [← d, e]
  all_goals
    rw [d] at e
    cases e

/-- A directory was no link before. -/
lemma Evolves.not_link_of_directory (h : t.Evolves t') {p : Place}
    (e : t'.node? p = some .directory) (target : String) : t.node? p ≠ some (.link target) := by
  intro hl
  rcases h.node p with d | ⟨d, _⟩ | ⟨_, _, _, d⟩
  · rw [e, hl] at d
    cases d
  · rw [hl] at d
    cases d
  · rw [e] at d
    cases d

/-- What is passed in a tree that has evolved leads to the same place in the tree before. -/
lemma Evolves.leads (h : t.Evolves t') {place names goal} (hp : t'.Passes place names goal) :
    t.Leads place names goal :=
  hp.leads (fun _ e => h.not_link_of_directory e) fun _ _ e => h.link e

end ConfigPack.FileTree
