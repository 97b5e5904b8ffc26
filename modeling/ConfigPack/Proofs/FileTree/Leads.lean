import ConfigPack.Proofs.Path

/-!
# Where names lead

`Leads` says where names lead from a place when everything on the way that is not a link is taken
for a directory, whether it stands there already or not.  So it depends on the links of a tree
alone, and it tells where a file will stand before the directories above it are made.  `Passes` asks
in addition that the directories on the way are there.
-/

namespace ConfigPack.FileTree

variable {tree : FileTree}

/-- `tree.Leads place names goal`: from a place the names lead to a goal. -/
inductive Leads (tree : FileTree) : Place → List String → Place → Prop where
  | here {place} : Leads tree place [] place
  | up {place rest goal} :
    Leads tree place.dropLast rest goal → Leads tree place (".." :: rest) goal
  | down {place name rest goal} :
    name ≠ ".." →
    (∀ target, tree.node? (place ++ [name]) ≠ some (.link target)) →
    Leads tree (place ++ [name]) rest goal →
    Leads tree place (name :: rest) goal
  | follow {place name target rest goal} :
    name ≠ ".." →
    tree.node? (place ++ [name]) = some (.link target) →
    Leads tree (start place target) (Path.names target ++ rest) goal →
    Leads tree place (name :: rest) goal

/-- `tree.Passes place names goal`: the names lead through directories and links to a goal. -/
inductive Passes (tree : FileTree) : Place → List String → Place → Prop where
  | here {place} : Passes tree place [] place
  | up {place rest goal} :
    Passes tree place.dropLast rest goal → Passes tree place (".." :: rest) goal
  | down {place name rest goal} :
    name ≠ ".." →
    tree.node? (place ++ [name]) = some .directory →
    Passes tree (place ++ [name]) rest goal →
    Passes tree place (name :: rest) goal
  | follow {place name target rest goal} :
    name ≠ ".." →
    tree.node? (place ++ [name]) = some (.link target) →
    Passes tree (start place target) (Path.names target ++ rest) goal →
    Passes tree place (name :: rest) goal

/-- The place to which a path leads. -/
def LeadsTo (tree : FileTree) (path : String) (goal : Place) : Prop :=
  tree.Leads (start tree.workingDirectory path) (Path.names path) goal

/-- The place of the entry that a path names in its directory: a link at the end is not followed. -/
def EntryOf (tree : FileTree) (path : String) (place : Place) : Prop :=
  ∃ above name directory,
    Path.names path = above ++ [name] ∧ name ≠ ".." ∧
      tree.Leads (start tree.workingDirectory path) above directory ∧ place = directory ++ [name]

/-- No link stands at a place or below it. -/
def LinkFree (tree : FileTree) (base : Place) : Prop :=
  ∀ place target, base <+: place → tree.node? place ≠ some (.link target)

/-- What stands at a place below the root is one of the nodes. -/
lemma mem_nodes {place : Place} {node : Node} (hne : place ≠ [])
    (h : tree.node? place = some node) : (place, node) ∈ tree.nodes := by
  rw [node?, if_neg hne] at h
  obtain ⟨front, back, hnodes, _⟩ := List.lookup_eq_some_iff.1 h
  simp [hnodes]

/-- A tree without links has none below any place. -/
lemma linkFree_of_nodes (h : ∀ e ∈ tree.nodes, ∀ target, e.2 ≠ .link target) (base : Place) :
    tree.LinkFree base := by
  intro place target _ e
  by_cases hroot : place = []
  · rw [node?, if_pos hroot] at e
    cases e
  · exact h _ (mem_nodes hroot e) target rfl

/-- Names lead to one place only. -/
lemma Leads.unique {place names goal goal'} (h : tree.Leads place names goal)
    (h' : tree.Leads place names goal') : goal = goal' := by
  induction h with
  | here =>
    cases h' with
    | here => rfl
  | up _ ih =>
    cases h' with
    | up h' => exact ih h'
    | down ne => exact absurd rfl ne
    | follow ne => exact absurd rfl ne
  | down ne nl _ ih =>
    cases h' with
    | up => exact absurd rfl ne
    | down _ _ h' => exact ih h'
    | follow _ e => exact absurd e (nl _)
  | follow ne e _ ih =>
    cases h' with
    | up => exact absurd rfl ne
    | down _ nl => exact absurd e (nl _)
    | follow _ e' h' =>
      rw [e] at e'
      cases e'
      exact ih h'

/-- A path names one entry only. -/
lemma EntryOf.unique {path : String} {place place' : Place} (h : tree.EntryOf path place)
    (h' : tree.EntryOf path place') : place = place' := by
  obtain ⟨above, name, directory, hnames, _, hl, rfl⟩ := h
  obtain ⟨above', name', directory', hnames', _, hl', rfl⟩ := h'
  rw [hnames] at hnames'
  obtain ⟨rfl, hname⟩ := List.append_inj' hnames' rfl
  cases hname
  rw [hl.unique hl']

/-- Names lead on from where the names before them lead. -/
lemma Leads.append {place a mid b goal} (h : tree.Leads place a mid) (h' : tree.Leads mid b goal) :
    tree.Leads place (a ++ b) goal := by
  induction h with
  | here => exact h'
  | up _ ih => exact .up (ih h')
  | down ne nl _ ih => exact .down ne nl (ih h')
  | follow ne e _ ih =>
    have h2 := ih h'
    rw [List.append_assoc] at h2
    exact .follow ne e h2

/-- Where names lead, the names at their front lead to a place from which the others go on. -/
lemma Leads.split {place names goal} (h : tree.Leads place names goal) :
    ∀ {a b}, names = a ++ b → ∃ mid, tree.Leads place a mid ∧ tree.Leads mid b goal := by
  -- one step after the other is given to the front, until this is used up
  induction h with
  | @here place =>
    intro a b e
    obtain ⟨rfl, rfl⟩ := List.append_eq_nil_iff.1 e.symm
    exact ⟨place, .here, .here⟩
  | @up place rest goal h ih =>
    intro a b e
    cases a with
    | nil =>
      cases e
      exact ⟨place, .here, .up h⟩
    | cons name a =>
      cases e
      obtain ⟨mid, h1, h2⟩ := ih rfl
      exact ⟨mid, .up h1, h2⟩
  | @down place name rest goal ne nl h ih =>
    intro a b e
    cases a with
    | nil =>
      cases e
      exact ⟨place, .here, .down ne nl h⟩
    | cons _ a =>
      cases e
      obtain ⟨mid, h1, h2⟩ := ih rfl
      exact ⟨mid, .down ne nl h1, h2⟩
  | @follow place name target rest goal ne e' h ih =>
    intro a b e
    cases a with
    | nil =>
      cases e
      exact ⟨place, .here, .follow ne e' h⟩
    | cons _ a =>
      cases e
      obtain ⟨mid, h1, h2⟩ := ih (List.append_assoc ..).symm
      exact ⟨mid, .follow ne e' h1, h2⟩

/-- Where no link stands, names that never lead upwards are put behind the place. -/
lemma Leads.of_linkFree {base place names goal} (hfree : tree.LinkFree base)
    (hbase : base <+: place) (h : tree.Leads place names goal) (hup : ".." ∉ names) :
    goal = place ++ names := by
  induction h with
  | here => simp
  | up _ _ => exact absurd List.mem_cons_self hup
  | @down place name rest goal _ _ _ ih =>
    have hnext : base <+: place ++ [name] := hbase.trans (List.prefix_append ..)
    rw [ih hnext fun hm => hup (List.mem_cons_of_mem _ hm), List.append_assoc]
    rfl
  | follow _ e _ _ =>
    exact absurd e (hfree _ _ (hbase.trans (List.prefix_append ..)))

/-- And there they lead somewhere. -/
lemma Leads.descend {base : Place} (hfree : tree.LinkFree base) :
    ∀ {names : List String} {place : Place}, base <+: place → ".." ∉ names →
      tree.Leads place names (place ++ names)
  | [], place, _, _ => by
    rw [List.append_nil]
    exact .here
  | name :: rest, place, hbase, hup => by
    have hnext : base <+: place ++ [name] := hbase.trans (List.prefix_append ..)
    have ih := descend hfree hnext fun hm => hup (List.mem_cons_of_mem _ hm)
    rw [List.append_assoc] at ih
    exact .down (fun e => hup (e ▸ List.mem_cons_self)) (hfree _ · hnext) ih

/-- What passes through the directories of one tree leads to the same place in another that has the
same links there and no links in the place of the directories. -/
lemma Passes.leads {tree' : FileTree} {place names goal} (h : tree'.Passes place names goal)
    (hdir : ∀ p, tree'.node? p = some .directory → ∀ target, tree.node? p ≠ some (.link target))
    (hlink : ∀ p target, tree'.node? p = some (.link target) → tree.node? p = some (.link target)) :
    tree.Leads place names goal := by
  induction h with
  | here => exact .here
  | up _ ih => exact .up ih
  | down ne e _ ih => exact .down ne (hdir _ e) ih
  | follow ne e _ ih => exact .follow ne (hlink _ _ e) ih

end ConfigPack.FileTree
