import ConfigPack.Proofs.FileTree.Enter

/-!
# Paving a way

Where the places on a way are directories or vacant, making the directories of a path succeeds.  The
ancestors are tried from the path upwards until one can be made or is there (`missingAncestors`),
and then those below it are made downwards (`makeEach`); in the end every place on the way is a
directory and nothing else has changed.
-/

namespace ConfigPack.FileTree

variable {t t' t'' : FileTree} {base : Place} {path : String}

/-- `t.Paves base names t'`: on the way of names from a place there are directories now, and all
else is as it was. -/
structure Paves (t : FileTree) (base : Place) (names : List String) (t' : FileTree) : Prop where
  workingDirectory : t'.workingDirectory = t.workingDirectory
  made : ∀ front, front ≠ [] → front <+: names → t'.node? (base ++ front) = some .directory
  kept : ∀ q, (∀ front, front ≠ [] → front <+: names → q ≠ base ++ front) →
    t'.node? q = t.node? q

/-- Whether names can be paved: on their way there is nothing but directories. -/
def Pavable (t : FileTree) (base : Place) (names : List String) : Prop :=
  ∀ front, front ≠ [] → front <+: names →
    t.node? (base ++ front) = none ∨ t.node? (base ++ front) = some .directory

/-- Names that a directory can have. -/
def AreNames (names : List String) : Prop :=
  ∀ name ∈ names, IsEntryName name ∧ FileName.size name ≤ maxName

/-- No names are paved by doing nothing. -/
lemma Paves.nil (t : FileTree) (base : Place) : t.Paves base [] t :=
  ⟨rfl, fun _ hne hpre => absurd (List.prefix_nil.1 hpre) hne, fun _ _ => rfl⟩

/-- What stood there as a directory still does. -/
lemma Paves.directory {names : List String} (h : t.Paves base names t') {q : Place}
    (hq : t.node? q = some .directory) : t'.node? q = some .directory := by
  by_cases hway : ∃ front, front ≠ [] ∧ front <+: names ∧ q = base ++ front
  · obtain ⟨front, hne, hpre, rfl⟩ := hway
    exact h.made front hne hpre
  · rw [h.kept q fun front hne hpre e => hway ⟨front, hne, hpre, e⟩, hq]

/-- A way is paved in two parts. -/
lemma Paves.append {a b : List String} (h : t.Paves base a t') (h' : t'.Paves (base ++ a) b t'') :
    t.Paves base (a ++ b) t'' := by
  refine ⟨h'.workingDirectory.trans h.workingDirectory, fun front hne hpre => ?_, fun q hq => ?_⟩
  · rcases List.prefix_or_prefix_of_prefix hpre (List.prefix_append a b) with hin | ⟨rest, rfl⟩
    · exact h'.directory (h.made front hne hin)
    · have hrest := (List.prefix_append_right_inj a).1 hpre
      by_cases hnil : rest = []
      · subst hnil
        rw [List.append_nil] at hne ⊢
        exact h'.directory (h.made a hne List.prefix_rfl)
      · rw [← List.append_assoc]
        exact h'.made rest hnil hrest
  · rw [h'.kept q, h.kept q]
    · exact fun front hne hpre => hq front hne (hpre.trans (List.prefix_append ..))
    · intro front hne hpre
      rw [List.append_assoc]
      exact hq (a ++ front) (by simp [hne]) (List.prefix_append_right_inj _ |>.2 hpre)

/-- One directory is made. -/
lemma Paves.made_one {name : String} (t : FileTree) (base : Place) :
    t.Paves base [name] (t.set (base ++ [name]) .directory) := by
  have hne : base ++ [name] ≠ [] := by simp
  refine ⟨rfl, fun front hfront hpre => ?_, fun q hq => ?_⟩
  · have hwhole : front = [name] := by
      rcases List.prefix_cons_iff.1 hpre with e | ⟨rest, rfl, hrest⟩
      · exact absurd e hfront
      · rw [List.prefix_nil.1 hrest]
    rw [hwhole, node?_set hne, if_pos rfl]
  · rw [node?_set hne, if_neg (hq [name] (by simp) List.prefix_rfl)]

/-- Where all directories are there, nothing needs to be done. -/
lemma Paves.refl {names : List String}
    (h : ∀ front, front ≠ [] → front <+: names → t.node? (base ++ front) = some .directory) :
    t.Paves base names t :=
  ⟨rfl, h, fun _ _ => rfl⟩

/-- What can be paved can be paved in part. -/
lemma Pavable.of_prefix {a b : List String} (h : t.Pavable base (a ++ b)) : t.Pavable base a :=
  fun front hne hpre => h front hne (hpre.trans (List.prefix_append ..))

/-- Paving the first part of a way leaves the rest as it was. -/
lemma Pavable.rest {a b : List String} (h : t.Pavable base (a ++ b)) (hp : t.Paves base a t') :
    t'.Pavable (base ++ a) b := by
  intro front hne hpre
  have hway := h (a ++ front) (by simp [hne]) ((List.prefix_append_right_inj a).2 hpre)
  rw [List.append_assoc, hp.kept]
  · exact hway
  · intro front' _ hpre' e
    have hlen := hpre'.length_le
    rw [← List.append_cancel_left e, List.length_append] at hlen
    exact hne (List.length_eq_zero_iff.1 (by omega))

/-- A way is paved already, or there is a first directory that is missing. -/
lemma Pavable.cases {names : List String} (h : t.Pavable base names) :
    (∀ front, front ≠ [] → front <+: names → t.node? (base ++ front) = some .directory) ∨
      ∃ front name more, names = front ++ name :: more ∧
        (∀ front', front' ≠ [] → front' <+: front →
          t.node? (base ++ front') = some .directory) ∧
        t.node? (base ++ front ++ [name]) = none := by
  induction names using List.reverseRecOn with
  | nil => exact .inl fun front hne hpre => absurd (List.prefix_nil.1 hpre) hne
  | append_singleton names last ih =>
    rcases ih h.of_prefix with hall | ⟨front, name, more, rfl, hfront, hvacant⟩
    · rcases h (names ++ [last]) (by simp) List.prefix_rfl with hvacant | hlast
      · rw [← List.append_assoc] at hvacant
        exact .inr ⟨names, last, [], rfl, hall, hvacant⟩
      · refine .inl fun front hne hpre => ?_
        rcases List.prefix_concat_iff.1 hpre with rfl | hpre
        · exact hlast
        · exact hall front hne hpre
    · exact .inr ⟨front, name, more ++ [last], by simp, hfront, hvacant⟩

/-- Names are entered when each front of them is a directory. -/
lemma AreNames.enters {names : List String} (h : AreNames names)
    (hdir : ∀ front, front ≠ [] → front <+: names → t.node? (base ++ front) = some .directory) :
    t.Enters base names (base ++ names) :=
  .descend (fun name hn => ⟨(h name hn).1.ne_up, (h name hn).2⟩) hdir

/-! ## Downwards -/

/-- A path that is as absolute as another, with the names of a directory and one more at its end. -/
structure Rung (path : String) (stem : List String) (name above : String) : Prop where
  fits : Fits above
  isAbsolute : Path.isAbsolute above = Path.isAbsolute path
  isEntryName : IsEntryName name
  size : FileName.size name ≤ maxName
  endsIn : Path.EndsIn above stem name

/-- The names up to a rung. -/
lemma Rung.names {stem : List String} {name above : String} (h : Rung path stem name above) :
    Path.names above = stem ++ [name] :=
  h.endsIn.names h.isEntryName.not_trivial

/-- A rung is an entry of the directory below it. -/
lemma Rung.entryIn {stem : List String} {name above : String} {directory : Place}
    (h : Rung path stem name above)
    (henters : t.Enters (start t.workingDirectory path) stem directory) :
    t.EntryIn above directory name :=
  ⟨h.fits, h.isEntryName, h.size, stem, h.endsIn, start_eq h.isAbsolute ▸ henters⟩

/-- Paths one below the other; `more` are the names by which they go on from `stem`. -/
inductive Ladder (path : String) : List String → List String → List String → Prop where
  | foot {stem} : Ladder path stem [] []
  | rung {stem name more above paths} :
    Rung path stem name above →
    Ladder path (stem ++ [name]) more paths →
    Ladder path stem (name :: more) (above :: paths)

/-- The directories of paths one below the other are made from the top on. -/
lemma Ladder.makeEach {stem more paths : List String} (h : Ladder path stem more paths) :
    ∀ {t : FileTree} {place : Place}, t.Enters (start t.workingDirectory path) stem place →
      t.Pavable place more →
      ∃ t', t.makeEach paths = (t', .ok ()) ∧ t.Paves place more t' := by
  induction h with
  | foot =>
    intro t place _ _
    exact ⟨t, rfl, .nil _ _⟩
  | @rung stem name more above paths hrung _ ih =>
    intro t place henters hpavable
    have hone : t.Pavable place ([name] ++ more) := hpavable
    obtain ⟨t₁, hmake, hpaves⟩ : ∃ t₁, t.makeEach (above :: paths) = t₁.makeEach paths ∧
        t.Paves place [name] t₁ := by
      rcases hpavable [name] (by simp) ⟨more, rfl⟩ with hvacant | hdir
      · refine ⟨_, ?_, .made_one _ _⟩
        rw [FileTree.makeEach, (hrung.entryIn henters).makeDirectory hvacant]
      · have hall : t.Enters (start t.workingDirectory above) (Path.names above)
            (place ++ [name]) := by
          rw [start_eq hrung.isAbsolute, hrung.names]
          exact henters.append (.down hrung.isEntryName.ne_up hrung.size hdir .here)
        refine ⟨t, ?_, .refl fun front hne hpre => ?_⟩
        · simp only [FileTree.makeEach, hall.makeDirectory hrung.fits,
            hall.isDirectory hrung.fits hdir, decide_true, Bool.and_self, ↓reduceIte]
        · rcases List.prefix_cons_iff.1 hpre with e | ⟨rest, rfl, hrest⟩
          · exact absurd e hne
          · rw [List.prefix_nil.1 hrest]
            exact hdir
    have hnext : t₁.Enters (start t₁.workingDirectory path) (stem ++ [name]) (place ++ [name]) := by
      rw [hpaves.workingDirectory]
      have hdir := hpaves.made [name] (by simp) List.prefix_rfl
      exact (henters.mono fun _ => hpaves.directory).append
        (.down hrung.isEntryName.ne_up hrung.size hdir .here)
    obtain ⟨t', hrest, hpaves'⟩ := ih hnext (hone.rest hpaves)
    exact ⟨t', hmake.trans hrest, hpaves.append hpaves'⟩

/-! ## Upwards -/

/-- A path as absolute as another, with the names of a directory and others behind them, and with
nothing behind the last of those. -/
structure OnLadder (path : String) (stem names : List String) (above : String) : Prop where
  fits : above = "" ∨ Fits above
  isAbsolute : Path.isAbsolute above = Path.isAbsolute path
  endsIn : ∀ front last, names = front ++ [last] → Path.EndsIn above (stem ++ front) last
  names : Path.names above = stem ++ names

/-- A path on a ladder stands on a rung. -/
lemma OnLadder.rung {stem names : List String} {last above : String}
    (h : OnLadder path stem (names ++ [last]) above) (hnames : AreNames (names ++ [last])) :
    Rung path (stem ++ names) last above := by
  have hfits : Fits above := by
    rcases h.fits with rfl | hfits
    · have := h.names
      simp at this
    · exact hfits
  obtain ⟨hentry, hsize⟩ := hnames last (by simp)
  exact ⟨hfits, h.isAbsolute, hentry, hsize, h.endsIn names last rfl⟩

/-- Its parent is on the ladder as well. -/
lemma OnLadder.parent {stem names : List String} {last above : String}
    (h : OnLadder path stem (names ++ [last]) above) :
    ∃ up, Path.parent? above = some up ∧ OnLadder path stem names up := by
  have hne : Path.names above ≠ [] := by simp [h.names]
  obtain ⟨up, hup⟩ := Path.parent?_of_names hne
  obtain ⟨hnames, habs⟩ := Path.names_parent hup
  rw [h.names, ← List.append_assoc, List.dropLast_concat] at hnames
  refine ⟨up, hup, ?_, habs.trans h.isAbsolute, fun front last' e => ?_, hnames⟩
  · by_cases hempty : up = ""
    · exact .inl hempty
    · obtain ⟨rest, rfl⟩ := Path.parent?_append hup
      rcases h.fits with e | hfits
      · rw [e] at hne
        simp at hne
      · exact .inr (hfits.of_append hempty)
  · obtain ⟨front', last'', hends, hproper⟩ := Path.parent?_endsIn hup (by simp [hnames, e])
    have hsame := (hends.names hproper).symm.trans hnames
    rw [e, ← List.append_assoc] at hsame
    obtain ⟨rfl, hlast⟩ := List.append_inj' hsame rfl
    cases hlast
    exact hends

/-- Going up, one comes to a directory that is there or can be made, and below it the others are
missing. -/
lemma Pavable.missingAncestors {stem : List String} {base : Place} (names : List String) :
    ∀ {fuel : Nat} {above : String} {more missing : List String} {t : FileTree},
      t.Enters (start t.workingDirectory path) stem base → t.node? base = some .directory →
      t.Pavable base names → AreNames names → names.length < fuel →
      OnLadder path stem names above → Ladder path (stem ++ names) more missing →
      ∃ done todo missing' t', names = done ++ todo ∧
        t.missingAncestors (ancestors fuel above) missing = .ok (t', missing') ∧
        t.Paves base done t' ∧ Ladder path (stem ++ done) (todo ++ more) missing' := by
  -- from the last name on, as ancestors are tried upwards
  induction names using List.reverseRecOn with
  | nil =>
    intro fuel above more missing t henters hbase _ _ hfuel habove hladder
    obtain ⟨fuel, rfl⟩ := Nat.exists_eq_add_of_lt hfuel
    refine ⟨[], [], missing, t, rfl, ?_, .nil _ _, hladder⟩
    simp only [List.length_nil, Nat.zero_add, ancestors, FileTree.missingAncestors]
    rcases habove.fits with hempty | hfits
    · rw [if_pos hempty]
    · have hall : t.Enters (start t.workingDirectory above) (Path.names above) base := by
        rw [start_eq habove.isAbsolute, habove.names, List.append_nil]
        exact henters
      rw [if_neg hfits.ne_empty, hall.makeDirectory hfits]
      simp only [hall.isDirectory hfits hbase, ↓reduceIte]
  | append_singleton names last ih =>
    intro fuel above more missing t henters hbase hpavable hnames hfuel habove hladder
    rw [List.length_append, List.length_singleton] at hfuel
    obtain ⟨fuel, rfl⟩ := Nat.exists_eq_add_of_lt hfuel
    have hrung := habove.rung hnames
    have hfront : AreNames names := fun name hn => hnames name (List.mem_append_left _ hn)
    rcases hpavable.of_prefix.cases with hall | ⟨front, name, behind, rfl, hthere, hvacant⟩
    · -- all above is there, so the last directory is made or found
      have hway := henters.append (hfront.enters hall)
      refine ⟨names ++ [last], [], missing, ?_⟩
      rcases hpavable (names ++ [last]) (by simp) List.prefix_rfl with hvacant | hdir
      · rw [← List.append_assoc] at hvacant
        refine ⟨_, by simp, ?_, (Paves.refl hall).append (.made_one _ _), hladder⟩
        simp only [ancestors, FileTree.missingAncestors, hrung.fits.ne_empty, ↓reduceIte,
          (hrung.entryIn hway).makeDirectory hvacant]
      · have hwhole : ∀ front, front ≠ [] → front <+: names ++ [last] →
            t.node? (base ++ front) = some .directory := by
          intro front hne hpre
          rcases List.prefix_concat_iff.1 hpre with rfl | hpre
          · exact hdir
          · exact hall front hne hpre
        have hreach : t.Enters (start t.workingDirectory above) (Path.names above)
            (base ++ (names ++ [last])) := by
          rw [start_eq habove.isAbsolute, habove.names]
          exact henters.append (hnames.enters hwhole)
        refine ⟨t, by simp, ?_, .refl hwhole, hladder⟩
        simp only [ancestors, FileTree.missingAncestors, hrung.fits.ne_empty, ↓reduceIte,
          hreach.makeDirectory hrung.fits, hreach.isDirectory hrung.fits hdir]
    · -- a directory further up is missing, so this one cannot be made yet
      have hfrontNames : AreNames front := fun x hx => hfront x (List.mem_append_left _ hx)
      obtain ⟨hname, hsize⟩ := hfront name (by simp)
      have hsplit : Path.names above = (stem ++ front) ++ name :: (behind ++ [last]) := by
        simp [habove.names]
      have hmissing : t.makeDirectory above = .error .notFound := by
        refine hrung.fits.makeDirectory_missing hsplit (by simp) ?_ hname.ne_up hsize hvacant
        rw [start_eq habove.isAbsolute]
        exact henters.append (hfrontNames.enters hthere)
      obtain ⟨up, hup, hupper⟩ := habove.parent
      have hlonger : Ladder path (stem ++ (front ++ name :: behind)) (last :: more)
          (above :: missing) := by
        refine .rung hrung ?_
        rw [List.append_assoc]
        exact hladder
      have hupfuel : (front ++ name :: behind).length <
          (front ++ name :: behind).length + 1 + fuel := by omega
      obtain ⟨done, todo, missing', t', hdone, hresult, hpaves, hladder'⟩ :=
        ih henters hbase hpavable.of_prefix hfront hupfuel hupper hlonger
      refine ⟨done, todo ++ [last], missing', t', by simp [hdone], ?_, hpaves, by simpa using hladder'⟩
      simp only [ancestors, FileTree.missingAncestors, hrung.fits.ne_empty, ↓reduceIte, hmissing, hup]
      exact hresult

/-- Making the directories of a path paves its way. -/
lemma Pavable.makeDirectories {stem names : List String} (hpavable : t.Pavable base names)
    (henters : t.Enters (start t.workingDirectory path) stem base)
    (hbase : t.node? base = some .directory) (hnames : AreNames names)
    (hpath : OnLadder path stem names path) :
    ∃ t', t.makeDirectories path = (t', .ok ()) ∧ t.Paves base names t' := by
  have hfuel : names.length < path.utf8ByteSize + 1 := by
    have hlen := Path.length_names_le path
    rw [hpath.names, List.length_append] at hlen
    omega
  obtain ⟨done, todo, missing, t₁, rfl, hmissing, hpaves, hladder⟩ :=
    hpavable.missingAncestors names henters hbase hnames hfuel hpath .foot
  rw [List.append_nil] at hladder
  have henters₁ : t₁.Enters (start t₁.workingDirectory path) (stem ++ done) (base ++ done) := by
    rw [hpaves.workingDirectory]
    refine (henters.mono fun _ => hpaves.directory).append ?_
    exact AreNames.enters (fun name hn => hnames name (List.mem_append_left _ hn)) hpaves.made
  obtain ⟨t', heach, hpaves'⟩ := hladder.makeEach henters₁ (hpavable.rest hpaves)
  refine ⟨t', ?_, hpaves.append hpaves'⟩
  rw [FileTree.makeDirectories, hmissing]
  exact heach

end ConfigPack.FileTree
