import ConfigPack.Proofs.FileTree.Leads

/-!
# Where walks end

`Step` is all that one step of a walk can do, and a walk that succeeds takes one after the other.
`Walks` has a rule for each of them and tells which walks succeed, without the fuel that bounds
their steps.  From it follows where a walk ends: one that does not follow a link at the end passes
through all names but the last and ends at the entry of that name, and one that follows it ends
where its names lead.
-/

namespace ConfigPack.FileTree

variable {tree : FileTree}

/-- The place at which a landing is. -/
def Landing.place : Landing → Place
  | found place => place
  | missing directory name _ => directory ++ [name]

/-- Whether a name stands for an entry of its own. -/
structure IsEntryName (name : String) : Prop where
  ne_empty : name ≠ ""
  ne_dot : name ≠ "."
  ne_up : name ≠ ".."

/-- The name of an entry is not trivial. -/
lemma IsEntryName.not_trivial {name : String} (h : IsEntryName name) : ¬ (name = "" ∨ name = ".") :=
  fun ht => ht.elim h.ne_empty h.ne_dot

/-- `tree.Walks follow links place names landing`: a walk along names that may follow so many links
ends at a landing. -/
inductive Walks (tree : FileTree) (follow : Bool) : Nat → Place → List String → Landing → Prop where
  | arrive {links place} : Walks tree follow links place [] (.found place)
  | stay {links place name rest landing} :
    name = "" ∨ name = "." →
    Walks tree follow links place rest landing →
    Walks tree follow links place (name :: rest) landing
  | up {links place rest landing} :
    Walks tree follow links place.dropLast rest landing →
    Walks tree follow links place (".." :: rest) landing
  | vacant {links place name rest} :
    IsEntryName name → FileName.size name ≤ maxName →
    tree.node? (place ++ [name]) = none →
    (∀ r ∈ rest, r = "") →
    Walks tree follow links place (name :: rest) (.missing place name (!rest.isEmpty))
  | enter {links place name rest landing} :
    IsEntryName name → FileName.size name ≤ maxName →
    tree.node? (place ++ [name]) = some .directory →
    Walks tree follow links (place ++ [name]) rest landing →
    Walks tree follow links place (name :: rest) landing
  | file {links place name data mode} :
    IsEntryName name → FileName.size name ≤ maxName →
    tree.node? (place ++ [name]) = some (.file data mode) →
    Walks tree follow links place [name] (.found (place ++ [name]))
  | stop {links place name target} :
    IsEntryName name → FileName.size name ≤ maxName →
    tree.node? (place ++ [name]) = some (.link target) →
    follow = false →
    Walks tree follow links place [name] (.found (place ++ [name]))
  | follow {links place name target rest landing} :
    IsEntryName name → FileName.size name ≤ maxName →
    tree.node? (place ++ [name]) = some (.link target) →
    rest ≠ [] ∨ follow = true → target ≠ "" →
    Walks tree follow links (start place target) (steps target ++ rest) landing →
    Walks tree follow (links + 1) place (name :: rest) landing

/-! ## One step -/

/-- What a step leaves: the walk has landed, or it goes on along names with so many links to
follow. -/
inductive Stride where
  | lands (landing : Landing)
  | goes (links : Nat) (place : Place) (names : List String)

/-- A stride ends at a landing when the walk that goes on does. -/
def Stride.EndsAt (walk : Nat → Place → List String → Except IoError Landing) (landing : Landing) :
    Stride → Prop
  | lands there => there = landing
  | goes links place names => walk links place names = .ok landing

/-- All that a step of a walk can do when it does not fail. -/
inductive Step (tree : FileTree) (follow : Bool) : Nat → Place → List String → Stride → Prop where
  | arrive {links place} : Step tree follow links place [] (.lands (.found place))
  | stay {links place name rest} :
    name = "" ∨ name = "." → Step tree follow links place (name :: rest) (.goes links place rest)
  | up {links place rest} :
    Step tree follow links place (".." :: rest) (.goes links place.dropLast rest)
  | vacant {links place name rest} :
    IsEntryName name → FileName.size name ≤ maxName →
    tree.node? (place ++ [name]) = none →
    (∀ r ∈ rest, r = "") →
    Step tree follow links place (name :: rest) (.lands (.missing place name (!rest.isEmpty)))
  | enter {links place name rest} :
    IsEntryName name → FileName.size name ≤ maxName →
    tree.node? (place ++ [name]) = some .directory →
    Step tree follow links place (name :: rest) (.goes links (place ++ [name]) rest)
  | file {links place name data mode} :
    IsEntryName name → FileName.size name ≤ maxName →
    tree.node? (place ++ [name]) = some (.file data mode) →
    Step tree follow links place [name] (.lands (.found (place ++ [name])))
  | stop {links place name target} :
    IsEntryName name → FileName.size name ≤ maxName →
    tree.node? (place ++ [name]) = some (.link target) →
    follow = false →
    Step tree follow links place [name] (.lands (.found (place ++ [name])))
  | follow {links place name target rest} :
    IsEntryName name → FileName.size name ≤ maxName →
    tree.node? (place ++ [name]) = some (.link target) →
    rest ≠ [] ∨ follow = true → target ≠ "" →
    Step tree follow (links + 1) place (name :: rest)
      (.goes links (start place target) (steps target ++ rest))

/-- A walk that succeeds takes a step first, and ends where this one's stride does. -/
lemma walkFrom_succ_ok {follow : Bool} {fuel links : Nat} {place : Place} {names : List String}
    {landing : Landing} :
    tree.walkFrom follow (fuel + 1) links place names = .ok landing ↔
      ∃ stride, tree.Step follow links place names stride ∧
        stride.EndsAt (tree.walkFrom follow fuel) landing := by
  constructor
  · intro h
    cases names with
    | nil =>
      cases h
      exact ⟨_, .arrive, rfl⟩
    | cons name rest =>
      simp only [walkFrom] at h
      split at h
      next htrivial => exact ⟨_, .stay htrivial, h⟩
      next htrivial =>
        split at h
        next hup =>
          subst hup
          exact ⟨_, .up, h⟩
        next hup =>
          have hname : IsEntryName name :=
            ⟨fun e => htrivial (.inl e), fun e => htrivial (.inr e), hup⟩
          split at h
          · cases h
          next hsize =>
            have hsize := Nat.not_lt.1 hsize
            split at h
            next hnode =>
              split at h
              next hrest =>
                cases h
                exact ⟨_, .vacant hname hsize hnode (by simpa using hrest), rfl⟩
              next => cases h
            next hnode => exact ⟨_, .enter hname hsize hnode, h⟩
            next hnode =>
              split at h
              next hrest =>
                cases h
                cases List.isEmpty_iff.1 hrest
                exact ⟨_, .file hname hsize hnode, rfl⟩
              next => cases h
            next hnode =>
              split at h
              next hrest =>
                cases h
                obtain ⟨hrest, hfollow⟩ := Bool.and_eq_true_iff.1 hrest
                cases List.isEmpty_iff.1 hrest
                exact ⟨_, .stop hname hsize hnode (by simpa using hfollow), rfl⟩
              next hrest =>
                split at h
                · cases h
                · split at h
                  · cases h
                  next htarget =>
                    refine ⟨_, .follow hname hsize hnode ?_ (by simpa using htarget), h⟩
                    cases follow <;> simp_all
  · rintro ⟨stride, hstep, hends⟩
    cases hstep with
    | arrive =>
      cases hends
      rfl
    | stay htrivial =>
      rw [walkFrom, if_pos htrivial]
      exact hends
    | up =>
      rw [walkFrom, if_neg (by decide), if_pos rfl]
      exact hends
    | vacant hname hsize hnode hrest =>
      cases hends
      simp only [walkFrom, hname.not_trivial, hname.ne_up, Nat.not_lt.2 hsize, hnode, ↓reduceIte]
      rw [if_pos (by simpa using hrest)]
    | enter hname hsize hnode =>
      simp only [walkFrom, hname.not_trivial, hname.ne_up, Nat.not_lt.2 hsize, hnode, ↓reduceIte]
      exact hends
    | file hname hsize hnode =>
      cases hends
      simp only [walkFrom, hname.not_trivial, hname.ne_up, Nat.not_lt.2 hsize, hnode, ↓reduceIte,
        List.isEmpty_nil]
    | stop hname hsize hnode hfollow =>
      cases hends
      simp only [walkFrom, hname.not_trivial, hname.ne_up, Nat.not_lt.2 hsize, hnode, ↓reduceIte,
        List.isEmpty_nil, hfollow, Bool.not_false, Bool.and_self]
    | @follow _ _ _ target rest hname hsize hnode hrest htarget =>
      have hgoes : ¬ (rest.isEmpty && !follow) = true := by
        cases hrest <;> simp_all
      have hnonempty : ¬ target.isEmpty = true := by simpa using htarget
      simp only [walkFrom, hname.not_trivial, hname.ne_up, Nat.not_lt.2 hsize, hnode, ↓reduceIte]
      rw [if_neg hgoes, if_neg hnonempty]
      exact hends

/-- A walk that succeeds follows the rules. -/
lemma walks_of_walkFrom {follow : Bool} {fuel : Nat} :
    ∀ {links place names landing}, tree.walkFrom follow fuel links place names = .ok landing →
      tree.Walks follow links place names landing := by
  -- on the fuel, since a link puts names in front and only its fuel gets less
  induction fuel with
  | zero =>
    intro links place names landing h
    simp [walkFrom] at h
  | succ fuel ih =>
    intro links place names landing h
    obtain ⟨stride, hstep, hends⟩ := walkFrom_succ_ok.1 h
    cases hstep with
    | arrive =>
      cases hends
      exact .arrive
    | stay htrivial => exact .stay htrivial (ih hends)
    | up => exact .up (ih hends)
    | vacant hname hsize hnode hrest =>
      cases hends
      exact .vacant hname hsize hnode hrest
    | enter hname hsize hnode => exact .enter hname hsize hnode (ih hends)
    | file hname hsize hnode =>
      cases hends
      exact .file hname hsize hnode
    | stop hname hsize hnode hfollow =>
      cases hends
      exact .stop hname hsize hnode hfollow
    | follow hname hsize hnode hrest htarget =>
      exact .follow hname hsize hnode hrest htarget (ih hends)

/-! ## Whole walks -/

/-- Names of a path are walked from where the path starts, if it is neither empty nor too long. -/
lemma walkNames_eq_ok {follow : Bool} {path : String} {names : List String} {landing : Landing} :
    tree.walkNames follow path names = .ok landing ↔
      path ≠ "" ∧ FileName.pathSize path < pathLimit ∧
        tree.walkFrom follow walkFuel maxLinks (start tree.workingDirectory path) names =
          .ok landing := by
  rw [walkNames, ← Nat.not_le]
  split
  next hempty => simp_all
  next hempty =>
    split
    next hsize => simp_all
    next hsize => simp_all

/-- A path is walked along its steps, if there is no null character in it. -/
lemma walk_eq_ok {follow : Bool} {path : String} {landing : Landing} :
    tree.walk follow path = .ok landing ↔
      Path.hasNul path = false ∧ tree.walkNames follow path (steps path) = .ok landing := by
  rw [walk]
  split
  next hnul => simp [hnul]
  next hnul => simp [hnul]

/-- A walk from the working directory that succeeds follows the rules. -/
lemma walks_of_walkNames {follow : Bool} {path : String} {names : List String} {landing : Landing}
    (h : tree.walkNames follow path names = .ok landing) :
    tree.Walks follow maxLinks (start tree.workingDirectory path) names landing :=
  walks_of_walkFrom (walkNames_eq_ok.1 h).2.2

/-- Nothing stands where a walk misses a name. -/
lemma Walks.vacant_of_missing {follow : Bool} {links place names landing}
    (h : tree.Walks follow links place names landing) :
    ∀ {directory name slash}, landing = .missing directory name slash →
      tree.node? (directory ++ [name]) = none := by
  induction h with
  | arrive => intro _ _ _ e; cases e
  | stay _ _ ih => exact ih
  | up _ ih => exact ih
  | vacant _ _ hn _ =>
    intro _ _ _ e
    cases e
    exact hn
  | enter _ _ _ _ ih => exact ih
  | file => intro _ _ _ e; cases e
  | stop => intro _ _ _ e; cases e
  | follow _ _ _ _ _ _ ih => exact ih

/-- The landing at the entry of a name in a directory. -/
def landingAt (tree : FileTree) (directory : Place) (name : String) : Landing :=
  match tree.node? (directory ++ [name]) with
  | none => .missing directory name false
  | some _ => .found (directory ++ [name])

/-- Where nothing stands the walk lands on what is missing. -/
lemma landingAt_none {directory : Place} {name : String}
    (h : tree.node? (directory ++ [name]) = none) :
    tree.landingAt directory name = .missing directory name false := by
  rw [landingAt, h]

/-- Where something stands it is found. -/
lemma landingAt_some {directory : Place} {name : String} {node : Node}
    (h : tree.node? (directory ++ [name]) = some node) :
    tree.landingAt directory name = .found (directory ++ [name]) := by
  rw [landingAt, h]

/-- In either case the place is that of the name. -/
lemma landingAt_place (directory : Place) (name : String) :
    (tree.landingAt directory name).place = directory ++ [name] := by
  rw [landingAt]
  split <;> rfl

/-- A walk that does not follow a link at the end passes to the directory of its last name. -/
lemma Walks.entry {links place names landing} (h : tree.Walks false links place names landing) :
    ∀ {above last}, names = above ++ [last] → IsEntryName last →
      ∃ directory, tree.Passes place (Path.proper above) directory ∧
        landing = tree.landingAt directory last := by
  -- on the walk: the last name is its only step, or it is behind the first one
  induction h with
  | arrive =>
    intro above last e
    simp at e
  | @stay links place name rest landing ht _ ih =>
    intro above last e hlast
    cases above with
    | nil =>
      cases e
      exact absurd ht hlast.not_trivial
    | cons _ above =>
      cases e
      rw [Path.proper_cons_trivial _ ht]
      exact ih rfl hlast
  | @up links place rest landing _ ih =>
    intro above last e hlast
    cases above with
    | nil =>
      cases e
      exact absurd rfl hlast.ne_up
    | cons _ above =>
      cases e
      obtain ⟨directory, hp, hl⟩ := ih rfl hlast
      rw [Path.proper_cons _ (by decide)]
      exact ⟨directory, .up hp, hl⟩
  | @vacant links place name rest hn _ e' hr =>
    intro above last e hlast
    cases above with
    | nil =>
      cases e
      exact ⟨place, .here, (landingAt_none e').symm⟩
    | cons _ above =>
      cases e
      exact absurd (hr last (by simp)) hlast.ne_empty
  | @enter links place name rest landing hn _ e' h ih =>
    intro above last e hlast
    cases above with
    | nil =>
      cases e
      cases h
      exact ⟨place, .here, (landingAt_some e').symm⟩
    | cons _ above =>
      cases e
      obtain ⟨directory, hp, hl⟩ := ih rfl hlast
      rw [Path.proper_cons _ hn.not_trivial]
      exact ⟨directory, .down hn.ne_up e' hp, hl⟩
  | @file links place name data mode _ _ e' =>
    intro above last e _
    cases above with
    | nil =>
      cases e
      exact ⟨place, .here, (landingAt_some e').symm⟩
    | cons _ above => simp at e
  | @stop links place name target _ _ e' _ =>
    intro above last e _
    cases above with
    | nil =>
      cases e
      exact ⟨place, .here, (landingAt_some e').symm⟩
    | cons _ above => simp at e
  | @follow links place name target rest landing hn _ e' hr _ _ ih =>
    intro above last e hlast
    cases above with
    | nil =>
      cases e
      simp at hr
    | cons _ above =>
      cases e
      -- the names of the target come in front of those that are left
      obtain ⟨directory, hp, hl⟩ := ih (List.append_assoc ..).symm hlast
      rw [Path.proper_append, Path.proper_steps] at hp
      rw [Path.proper_cons _ hn.not_trivial]
      exact ⟨directory, .follow hn.ne_up e' hp, hl⟩

/-- Names that say nothing lead nowhere else. -/
lemma Leads.of_empty {place : Place} {rest : List String} (hr : ∀ r ∈ rest, r = "") :
    tree.Leads place (Path.proper rest) place := by
  have : Path.proper rest = [] := by
    rw [List.eq_nil_iff_forall_not_mem]
    intro s hs
    obtain ⟨hs, hne, _⟩ := Path.mem_proper.1 hs
    exact hne (hr s hs)
  rw [this]
  exact .here

/-- A walk that follows links ends where its names lead. -/
lemma Walks.leads {links place names landing} (h : tree.Walks true links place names landing) :
    tree.Leads place (Path.proper names) landing.place := by
  induction h with
  | arrive => exact .here
  | stay ht _ ih =>
    rw [Path.proper_cons_trivial _ ht]
    exact ih
  | up _ ih =>
    rw [Path.proper_cons _ (by decide)]
    exact .up ih
  | vacant hn _ e hr =>
    rw [Path.proper_cons _ hn.not_trivial]
    exact .down hn.ne_up (by simp [e]) (.of_empty hr)
  | enter hn _ e _ ih =>
    rw [Path.proper_cons _ hn.not_trivial]
    exact .down hn.ne_up (by simp [e]) ih
  | file hn _ e =>
    rw [Path.proper_cons _ hn.not_trivial]
    exact .down hn.ne_up (by simp [e]) .here
  | stop _ _ _ hf => cases hf
  | follow hn _ e _ _ _ ih =>
    rw [Path.proper_append, Path.proper_steps] at ih
    rw [Path.proper_cons _ hn.not_trivial]
    exact .follow hn.ne_up e ih

/-- A walk that ends at no link ends there also when it would follow one. -/
lemma walkFrom_follow {fuel : Nat} :
    ∀ {links place names landing},
      tree.walkFrom false fuel links place names = .ok landing →
      (∀ target, tree.node? landing.place ≠ some (.link target)) →
      tree.walkFrom true fuel links place names = .ok landing := by
  induction fuel with
  | zero =>
    intro links place names landing h
    simp [walkFrom] at h
  | succ fuel ih =>
    intro links place names landing h hl
    obtain ⟨stride, hstep, hends⟩ := walkFrom_succ_ok.1 h
    refine walkFrom_succ_ok.2 ?_
    cases hstep with
    | arrive => exact ⟨_, .arrive, hends⟩
    | stay htrivial => exact ⟨_, .stay htrivial, ih hends hl⟩
    | up => exact ⟨_, .up, ih hends hl⟩
    | vacant hname hsize hnode hrest => exact ⟨_, .vacant hname hsize hnode hrest, hends⟩
    | enter hname hsize hnode => exact ⟨_, .enter hname hsize hnode, ih hends hl⟩
    | file hname hsize hnode => exact ⟨_, .file hname hsize hnode, hends⟩
    | stop _ _ hnode _ =>
      -- only at a link that comes last the two walks would part
      cases hends
      exact absurd hnode (hl _)
    | follow hname hsize hnode _ htarget =>
      exact ⟨_, .follow hname hsize hnode (.inr rfl) htarget, ih hends hl⟩

/-- What is no link is found with or without following links. -/
lemma walk_follow {path : String} {landing : Landing} (h : tree.walk false path = .ok landing)
    (hl : ∀ target, tree.node? landing.place ≠ some (.link target)) :
    tree.walk true path = .ok landing := by
  obtain ⟨hnul, h⟩ := walk_eq_ok.1 h
  obtain ⟨hempty, hsize, h⟩ := walkNames_eq_ok.1 h
  exact walk_eq_ok.2 ⟨hnul, walkNames_eq_ok.2 ⟨hempty, hsize, walkFrom_follow h hl⟩⟩

end ConfigPack.FileTree
