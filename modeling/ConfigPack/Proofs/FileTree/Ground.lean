import ConfigPack.Proofs.FileTree.Rooted

/-!
# The ground of a directory

The names of a directory pass through what is there up to its ground (`Ground`).  Behind it stands
nothing yet, unless something is in the way (`Blocked`).  One of the two is so for a directory with
no links in it that goes upwards only from directories that are there (`ground_or_blocked`).
-/

namespace ConfigPack.FileTree

variable {t g : FileTree} {place base goal : Place} {names front back : List String}

/-! ## Passing -/

/-- What is passed is passed one part after the other. -/
lemma Passes.split (h : t.Passes place names goal) :
    ∀ {a b}, names = a ++ b → ∃ mid, t.Passes place a mid ∧ t.Passes mid b goal := by
  induction h with
  | @here place =>
    intro a b e
    obtain ⟨rfl, rfl⟩ := List.append_eq_nil_iff.1 e.symm
    exact ⟨place, .here, .here⟩
  | @up place rest goal h ih =>
    intro a b e
    cases a with
    | nil =>
      cases e
      exact ⟨place, .here, .up h⟩
    | cons _ a =>
      cases e
      obtain ⟨mid, h1, h2⟩ := ih rfl
      exact ⟨mid, .up h1, h2⟩
  | @down place name rest goal ne e' h ih =>
    intro a b e
    cases a with
    | nil =>
      cases e
      exact ⟨place, .here, .down ne e' h⟩
    | cons _ a =>
      cases e
      obtain ⟨mid, h1, h2⟩ := ih rfl
      exact ⟨mid, .down ne e' h1, h2⟩
  | @follow place name target rest goal ne e' h ih =>
    intro a b e
    cases a with
    | nil =>
      cases e
      exact ⟨place, .here, .follow ne e' h⟩
    | cons _ a =>
      cases e
      obtain ⟨mid, h1, h2⟩ := ih (List.append_assoc ..).symm
      exact ⟨mid, .follow ne e' h1, h2⟩

/-- Names that are passed one after the other are passed together. -/
lemma Passes.append {mid : Place} (h : t.Passes place names mid) {more : List String}
    (h' : t.Passes mid more goal) : t.Passes place (names ++ more) goal := by
  induction h with
  | here => exact h'
  | up _ ih => exact .up (ih h')
  | down ne e _ ih => exact .down ne e (ih h')
  | follow ne e _ ih =>
    have h2 := ih h'
    rw [List.append_assoc] at h2
    exact .follow ne e h2

/-- What is passed leads to the same place. -/
lemma Passes.leads_same (h : t.Passes place names goal) : t.Leads place names goal :=
  h.leads (fun p e target e' => by rw [e] at e'; cases e') fun _ _ e => e

/-- What is passed is passed also where the same directories and links are. -/
lemma Passes.mono (h : t.Passes place names goal)
    (hdir : ∀ p, t.node? p = some .directory → g.node? p = some .directory)
    (hlink : ∀ p target, t.node? p = some (.link target) → g.node? p = some (.link target)) :
    g.Passes place names goal := by
  induction h with
  | here => exact .here
  | up _ ih => exact .up ih
  | down ne e _ ih => exact .down ne (hdir _ e) ih
  | follow ne e _ ih => exact .follow ne (hlink _ _ e) ih

/-- Names that pass to a directory end at something that stands there. -/
lemma Passes.entry {name : String} {directory : Place} (h : t.Passes place (names ++ [name]) goal)
    (hleads : t.Leads place names directory) (hup : name ≠ "..") :
    t.node? (directory ++ [name]) ≠ none := by
  obtain ⟨mid, hmid, hlast⟩ := h.split rfl
  obtain rfl := hmid.leads_same.unique hleads
  cases hlast with
  | up => exact absurd rfl hup
  | down _ e _ => simp [e]
  | follow _ e _ => simp [e]

/-- Names pass, or there is a first one that does not. -/
lemma passes_or_stops (t : FileTree) (place : Place) (names : List String) :
    (∃ goal, t.Passes place names goal) ∨
      ∃ front name more base, names = front ++ name :: more ∧ t.Passes place front base ∧
        ∀ goal, ¬ t.Passes place (front ++ [name]) goal := by
  -- names that stop stop there too when more names are behind them
  induction names using List.reverseRecOn with
  | nil => exact .inl ⟨place, .here⟩
  | append_singleton names last ih =>
    rcases ih with ⟨base, hbase⟩ | ⟨front, name, more, base, rfl, hbase, hstops⟩
    · by_cases hall : ∃ goal, t.Passes place (names ++ [last]) goal
      · exact .inl hall
      · exact .inr ⟨names, last, [], base, rfl, hbase, fun goal hg => hall ⟨goal, hg⟩⟩
    · refine .inr ⟨front, name, more ++ [last], base, ?_, hbase, hstops⟩
      rw [List.append_assoc, List.cons_append]

/-- Names lead straight on where no link is on their way. -/
lemma Leads.straight (h : t.Leads place names goal)
    (hfree : ∀ s, s ≠ [] → s <+: names → ∀ target, t.node? (place ++ s) ≠ some (.link target))
    (hup : ".." ∉ names) : goal = place ++ names := by
  induction h with
  | here => simp
  | up _ _ => exact absurd List.mem_cons_self hup
  | @down place name rest goal _ _ _ ih =>
    rw [ih (fun s hs hpre target => ?_) fun hm => hup (List.mem_cons_of_mem _ hm),
      List.append_assoc, List.singleton_append]
    rw [List.append_assoc, List.singleton_append]
    exact hfree (name :: s) (by simp) (List.cons_prefix_cons.2 ⟨rfl, hpre⟩) target
  | @follow place name target rest goal _ e _ _ =>
    exact absurd e (hfree [name] (by simp) (by simp) target)

/-- Nothing stands below what is vacant. -/
lemma Rooted.vacant_below (h : t.Rooted) (hvacant : t.node? place = none) (more : List String) :
    t.node? (place ++ more) = none := by
  induction more using List.reverseRecOn with
  | nil => rwa [List.append_nil]
  | append_singleton more last ih =>
    by_contra hnode
    rw [← List.append_assoc] at hnode
    rw [h.parent _ _ hnode] at ih
    cases ih

/-! ## The ground -/

/-- The names of a path go upwards only from directories that are there. -/
def UpwardsFromThere (t : FileTree) (path : String) : Prop :=
  ∀ front rest, Path.names path = front ++ ".." :: rest →
    ∃ goal, t.Passes (start t.workingDirectory path) front goal

/-- What the names `back` behind a place can reach: the places on their way and all below. -/
def Reach (base : Place) (back : List String) (place : Place) : Prop :=
  ∃ s, s ≠ [] ∧ (back <+: s ∨ s <+: back) ∧ place = base ++ s

/-- The names of a directory pass to its ground, and no link stands where they reach on. -/
structure Ground (t : FileTree) (directory : String) (front back : List String) (base : Place) :
    Prop where
  names : Path.names directory = front ++ back
  passes : t.Passes (start t.workingDirectory directory) front base
  straight : ".." ∉ back
  free : ∀ q, Reach base back q → ∀ target, t.node? q ≠ some (.link target)

/-- Something stands in the way of the names of a directory. -/
def Blocked (t : FileTree) (directory : String) : Prop :=
  ∃ front name more base, Path.names directory = front ++ name :: more ∧
    t.Passes (start t.workingDirectory directory) front base ∧ name ≠ ".." ∧
    t.node? (base ++ [name]) ≠ none ∧
    ∀ goal, ¬ t.Passes (start t.workingDirectory directory) (front ++ [name]) goal

/-- A directory has its ground, or something stands in its way. -/
lemma ground_or_blocked (h : t.Rooted) {directory : String} (hup : t.UpwardsFromThere directory)
    (hfree : ∀ base, t.LeadsTo directory base → t.LinkFree base) :
    (∃ front back base, t.Ground directory front back base) ∨ t.Blocked directory := by
  rcases t.passes_or_stops (start t.workingDirectory directory) (Path.names directory) with
    ⟨base, hbase⟩ | ⟨front, name, more, base, hnames, hbase, hstops⟩
  · refine .inl ⟨_, [], base, (List.append_nil _).symm, hbase, List.not_mem_nil, ?_⟩
    rintro q ⟨s, _, _, rfl⟩ target
    exact hfree base hbase.leads_same _ target (List.prefix_append ..)
  · have hname : name ≠ ".." := by
      rintro rfl
      exact hstops _ (hbase.append (.up .here))
    have hmore : ".." ∉ more := by
      intro hm
      obtain ⟨a, b, rfl⟩ := List.append_of_mem hm
      obtain ⟨goal, hgoal⟩ := hup (front ++ name :: a) b (by rw [hnames]; simp)
      have hsplit : front ++ name :: a = (front ++ [name]) ++ a := by simp
      obtain ⟨mid, hmid, _⟩ := hgoal.split hsplit
      exact hstops mid hmid
    by_cases hvacant : t.node? (base ++ [name]) = none
    · refine .inl ⟨front, name :: more, base, hnames, hbase, ?_, ?_⟩
      · simp [hname.symm, hmore]
      · rintro q ⟨s, hs, hreach, rfl⟩ target
        -- what is reached behind a vacant place is vacant
        have hpre : [name] <+: s := by
          rcases hreach with hreach | hreach
          · exact (List.prefix_append [name] more).trans hreach
          · cases s with
            | nil => exact absurd rfl hs
            | cons x s =>
              obtain ⟨rfl, _⟩ := List.cons_prefix_cons.1 hreach
              exact List.prefix_append [x] s
        obtain ⟨rest, rfl⟩ := hpre
        rw [← List.append_assoc, h.vacant_below hvacant]
        simp
    · exact .inr ⟨front, name, more, base, hnames, hbase, hname, hvacant, hstops⟩

end ConfigPack.FileTree
