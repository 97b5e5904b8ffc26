import ConfigPack.Proofs.FileTree.Ground
import ConfigPack.Proofs.FileTree.Replace

/-!
# What grows on the ground of a directory

Writing files below a directory makes directories and files only where its names reach behind its
ground.  A path below the directory reads the same as before, unless the reading fails now: where it
leads nowhere there is still nothing at its place, and where it leads to a file the file is the
same.
-/

namespace ConfigPack.FileTree

variable {t g g' : FileTree} {output : String} {base : Place} {front back : List String}
  {taken : List (List String)}

/-- What writing files below a directory has made of a tree; `taken` are the names of the files. -/
structure Sprouts (t : FileTree) (base : Place) (back : List String) (taken : List (List String))
    (g : FileTree) : Prop where
  evolves : t.Evolves g
  elsewhere : ∀ q, ¬ Reach base back q → g.node? q = t.node? q
  content : ∀ q, (∀ names ∈ taken, q ≠ base ++ (back ++ names)) → g.content? q = t.content? q

/-- No directories sprout from doing nothing. -/
lemma Sprouts.refl (t : FileTree) (base : Place) (back : List String) :
    Sprouts t base back [] t :=
  ⟨.refl t, fun _ _ => rfl, fun _ _ => rfl⟩

/-- A directory stays one. -/
lemma Evolves.directory (h : t.Evolves g) {p : Place} (hdir : t.node? p = some .directory) :
    g.node? p = some .directory := by
  rcases h.node p with e | ⟨e, _⟩ | ⟨e, _⟩
  · rw [e, hdir]
  · rw [e] at hdir
    cases hdir
  · exact absurd hdir e

/-- A file stays one, with whatever it holds. -/
lemma Evolves.file (h : t.Evolves g) {p : Place} {data : ByteArray} {mode : Nat}
    (hfile : t.node? p = some (.file data mode)) :
    ∃ data mode, g.node? p = some (.file data mode) := by
  rcases h.node p with e | ⟨e, _⟩ | ⟨_, e⟩
  · exact ⟨data, mode, e.trans hfile⟩
  · rw [e] at hfile
    cases hfile
  · exact e

/-- Places on the way of names that begin with `back` are reached. -/
lemma reach_of_front {s names : List String} (hne : s ≠ []) (hs : s <+: names)
    (hback : back <+: names) : Reach base back (base ++ s) :=
  ⟨s, hne, (List.prefix_or_prefix_of_prefix hs hback).symm, rfl⟩

section

variable (hground : t.Ground output front back base) (h : t.Sprouts base back taken g)

include hground h

/-- A link stays where it is. -/
lemma Sprouts.link {p : Place} {target : String} (hlink : t.node? p = some (.link target)) :
    g.node? p = some (.link target) := by
  rw [h.elsewhere p fun hreach => hground.free p hreach target hlink, hlink]

/-- What was passed still is. -/
lemma Sprouts.passes {place goal : Place} {names : List String} (hp : t.Passes place names goal) :
    g.Passes place names goal :=
  hp.mono (fun _ => h.evolves.directory) fun _ _ => h.link hground

/-- The ground is the same. -/
lemma Sprouts.ground : g.Ground output front back base := by
  refine ⟨hground.names, ?_, hground.straight, fun q hq target hlink => ?_⟩
  · rw [h.evolves.workingDirectory]
    exact h.passes hground hground.passes
  · exact hground.free q hq target (h.evolves.link hlink)

end

/-! ## Where things are put -/

/-- The part of a way that leads behind the ground leads straight on from there. -/
lemma Ground.leads (hground : t.Ground output front back base) {path above : List String}
    {name : String} {goal : Place} (hback : back <+: path) (hpath : ".." ∉ path)
    (hpre : above ++ [name] <+: front ++ path) (hup : name ≠ "..")
    (hleads : t.Leads (start t.workingDirectory output) above goal)
    (hvacant : t.node? (goal ++ [name]) = none ∨ front <+: above) :
    ∃ a, above = front ++ a ∧ goal = base ++ a ∧ a ++ [name] <+: path := by
  have hfront : front <+: above := by
    rcases hvacant with hvacant | hfront
    · rcases List.prefix_or_prefix_of_prefix hpre (List.prefix_append front path) with hin | hin
      · -- on the way to the ground everything is there
        obtain ⟨rest, hrest⟩ := hin
        obtain ⟨mid, hmid, _⟩ := hground.passes.split hrest.symm
        exact absurd hvacant (hmid.entry hleads hup)
      · rcases List.prefix_concat_iff.1 hin with rfl | hin
        · exact absurd hvacant (hground.passes.entry hleads hup)
        · exact hin
    · exact hfront
  obtain ⟨a, rfl⟩ := hfront
  rw [List.append_assoc, List.prefix_append_right_inj] at hpre
  obtain ⟨mid, hmid, hrest⟩ := hleads.split rfl
  obtain rfl := hmid.unique hground.passes.leads_same
  have ha : a <+: path := (List.prefix_append ..).trans hpre
  refine ⟨a, rfl, hrest.straight (fun s hs hsa target => ?_) fun hm => hpath (ha.subset hm), hpre⟩
  exact hground.free _ (reach_of_front hs (hsa.trans ha) hback) target

section

variable {path : String} {below : List String} (hground : t.Ground output front back base)
  (hbelow : ".." ∉ below) (hnames : Path.names path = Path.names output ++ below)
  (habs : Path.isAbsolute path = Path.isAbsolute output)

include hground hbelow hnames habs

/-- Directories on the way of a path below the directory are made where it reaches. -/
lemma Sprouts.grow (h : t.Sprouts base back taken g) (hgrows : g.Grows (g.OnWay path) g') :
    t.Sprouts base back taken g' := by
  refine ⟨h.evolves.trans hgrows.evolves, fun q hq => ?_, fun q hq => ?_⟩
  · rcases hgrows.node q with e | ⟨⟨above, name, goal, hpre, hup, hleads, rfl⟩, hvacant, _⟩
    · exact e.trans (h.elsewhere q hq)
    · rw [hnames, hground.names, List.append_assoc] at hpre
      rw [start_eq habs] at hleads
      obtain ⟨a, _, rfl, ha⟩ := (h.ground hground).leads (List.prefix_append back below)
        (by simp [hground.straight, hbelow]) hpre hup hleads (.inl hvacant)
      rw [List.append_assoc] at hq
      exact absurd (reach_of_front (by simp) ha (List.prefix_append back below)) hq
  · exact (hgrows.keeps q).content?.trans (h.content q hq)

/-- And a file is put at the place of its names. -/
lemma Sprouts.put (h : t.Sprouts base back taken g) {place : Place} {name : String}
    (hne : below ≠ []) (hentry : g.HasEntry path place name)
    (hdir : g.node? (place ++ [name]) ≠ some .directory) (data : ByteArray) (mode : Nat) :
    t.Sprouts base back (below :: taken) (g.set (place ++ [name]) (.file data mode)) := by
  obtain ⟨above, hpath, hname, hpasses⟩ := hentry
  rw [hnames, hground.names, List.append_assoc] at hpath
  obtain ⟨stem, last, rfl⟩ : ∃ stem last, below = stem ++ [last] :=
    ⟨_, _, (List.dropLast_append_getLast hne).symm⟩
  simp only [← List.append_assoc] at hpath
  obtain ⟨rfl, hlast⟩ := List.append_inj' hpath rfl
  cases hlast
  rw [start_eq habs] at hpasses
  have hpre : front ++ back ++ stem ++ [name] <+: front ++ (back ++ (stem ++ [name])) := by simp
  obtain ⟨a, ha, rfl, hreach⟩ := (h.ground hground).leads
    (List.prefix_append back (stem ++ [name])) (by simp_all [hground.straight]) hpre hname.ne_up
    hpasses.leads_same (.inr (by simp))
  rw [List.append_assoc, List.append_cancel_left_eq] at ha
  subst ha
  have hroot : base ++ (back ++ stem) ++ [name] ≠ [] := by simp
  refine ⟨h.evolves.trans (.set_file hroot hdir data mode), fun q hq => ?_, fun q hq => ?_⟩
  · rw [node?_set hroot, if_neg, h.elsewhere q hq]
    rintro rfl
    rw [List.append_assoc] at hq
    exact hq (reach_of_front (by simp) hreach (List.prefix_append ..))
  · have hq' : q ≠ base ++ (back ++ stem) ++ [name] := by
      have := hq (stem ++ [name]) List.mem_cons_self
      simpa using this
    rw [← h.content q fun names hn => hq names (List.mem_cons_of_mem _ hn)]
    exact content?_eq_of_node? (by rw [node?_set hroot, if_neg hq'])

end

/-! ## Reading -/

/-- What is read where a walk ends; where it finds nothing there is nothing to read. -/
def readingOf (t : FileTree) : Except IoError Landing → Except IoError (Option ByteArray)
  | .ok (.found place) =>
    match t.readAt place with
    | .ok data => .ok (some data)
    | .error .notFound => .ok none
    | .error e => .error e
  | .ok (.missing _ _ _) | .error .notFound => .ok none
  | .error e => .error e

/-- What is read at a place that holds the same file as before was read before. -/
lemma readingOf_found (hevolves : t.Evolves g) {q : Place} (hcontent : g.content? q = t.content? q)
    {data? : Option ByteArray} (h : readingOf g (.ok (.found q)) = .ok data?) :
    readingOf t (.ok (.found q)) = .ok data? := by
  simp only [readingOf, readAt] at h ⊢
  rcases hevolves.node q with e | ⟨_, e⟩ | ⟨_, data, mode, e⟩
  · rwa [e] at h
  · rw [e] at h
    cases h
  · rw [e] at h
    cases h
    simp only [content?, e] at hcontent
    split at hcontent
    next e' =>
      cases hcontent
      rw [e']
    next => cases hcontent

/-- What is read at a place is the content of its file. -/
lemma content?_of_readingOf {q : Place} {data : ByteArray}
    (h : readingOf t (.ok (.found q)) = .ok (some data)) : t.content? q = some data := by
  simp only [readingOf, readAt] at h
  rw [content?]
  split at h
  next hread =>
    split at hread
    next e =>
      cases hread
      cases h
      rw [e]
    all_goals cases hread
  all_goals cases h

section

variable {path : List String} (hpath : ".." ∉ path) (hback : back <+: path)

include hpath hback

/-- A walk along names on the ground reads the file at the place of the names, if any. -/
lemma Ground.reading (hground : t.Ground output front back base) {links fuel : Nat} :
    ∀ {s names : List String} {data : ByteArray}, s ++ Path.proper names = path →
      readingOf t (t.walkFrom true fuel links (base ++ s) names) = .ok (some data) →
      t.content? (base ++ path) = some data := by
  -- `s` are the names that were passed; with those in front they always make up the path
  induction fuel with
  | zero =>
    intro s names data _ h
    cases h
  | succ fuel ih =>
    intro s names data hs h
    cases names with
    | nil =>
      have hall : s = path := by simpa [Path.proper] using hs
      rw [← hall]
      exact content?_of_readingOf h
    | cons name rest =>
      simp only [walkFrom] at h
      by_cases htrivial : name = "" ∨ name = "."
      · rw [if_pos htrivial] at h
        rw [Path.proper_cons_trivial _ htrivial] at hs
        exact ih hs h
      rw [if_neg htrivial] at h
      rw [Path.proper_cons _ htrivial] at hs
      have hup : name ≠ ".." := by
        rintro rfl
        exact hpath (hs ▸ by simp)
      rw [if_neg hup] at h
      split at h
      · cases h
      have hs' : (s ++ [name]) ++ Path.proper rest = path := by simpa using hs
      rw [List.append_assoc] at h
      split at h
      · split at h <;> cases h
      · exact ih hs' h
      · split at h
        next hrest =>
          cases List.isEmpty_iff.1 hrest
          rw [← hs', Path.proper, List.filter_nil, List.append_nil]
          exact content?_of_readingOf h
        next => cases h
      next hlink =>
        -- there are no links on the ground
        have hpre : s ++ [name] <+: path := ⟨_, hs'⟩
        exact absurd hlink (hground.free _ (reach_of_front (by simp) hpre hback) _)

variable (hrooted : t.Rooted) (hground : t.Ground output front back base)
  (h : t.Sprouts base back taken g)
  (hcontent : g.content? (base ++ path) = t.content? (base ++ path))

include hrooted hground h hcontent

/-- On the ground a walk reads what it read before. -/
lemma Sprouts.reading_behind {links fuel : Nat} :
    ∀ {s names : List String} {data? : Option ByteArray}, s ++ Path.proper names = path →
      readingOf g (g.walkFrom true fuel links (base ++ s) names) = .ok data? →
      readingOf t (t.walkFrom true fuel links (base ++ s) names) = .ok data? := by
  induction fuel with
  | zero =>
    intro s names data? _ hg
    cases hg
  | succ fuel ih =>
    intro s names data? hs hg
    cases names with
    | nil =>
      have hall : s = path := by simpa [Path.proper] using hs
      rw [← hall] at hcontent
      exact readingOf_found h.evolves hcontent hg
    | cons name rest =>
      have hwhole : ∀ data, readingOf g (g.walkFrom true (fuel + 1) links (base ++ s)
          (name :: rest)) = .ok (some data) → g.content? (base ++ path) = some data :=
        fun data hdata => (h.ground hground).reading hpath hback hs hdata
      by_cases htrivial : name = "" ∨ name = "."
      · simp only [walkFrom, if_pos htrivial] at hg ⊢
        rw [Path.proper_cons_trivial _ htrivial] at hs
        exact ih hs hg
      rw [Path.proper_cons _ htrivial] at hs
      have hup : name ≠ ".." := by
        rintro rfl
        exact hpath (hs ▸ by simp)
      have hs' : (s ++ [name]) ++ Path.proper rest = path := by simpa using hs
      have hpre : s ++ [name] <+: path := ⟨_, hs'⟩
      cases hnode : t.node? (base ++ (s ++ [name])) with
      | none =>
        -- nothing is read here, and what stands there now holds no file at the end
        have hvacant : t.content? (base ++ path) = none := by
          obtain ⟨more, rfl⟩ := hpre
          rw [content?, ← List.append_assoc, hrooted.vacant_below hnode]
        obtain rfl : data? = none := by
          cases data? with
          | none => rfl
          | some data =>
            have := hwhole data (by rw [hg])
            rw [hcontent, hvacant] at this
            cases this
        simp only [walkFrom, if_neg htrivial, if_neg hup, List.append_assoc, hnode] at hg ⊢
        split at hg
        · cases hg
        next hsize =>
          rw [if_neg hsize]
          split <;> rfl
      | some node =>
        simp only [walkFrom, if_neg htrivial, if_neg hup, List.append_assoc, hnode] at hg ⊢
        split at hg
        · cases hg
        next hsize =>
          rw [if_neg hsize]
          cases node with
          | directory =>
            rw [h.evolves.directory hnode] at hg
            exact ih hs' hg
          | file data mode =>
            obtain ⟨data', mode', hnode'⟩ := h.evolves.file hnode
            rw [hnode'] at hg
            simp only at hg ⊢
            split at hg
            next hrest =>
              rw [if_pos hrest]
              cases List.isEmpty_iff.1 hrest
              rw [← hs', Path.proper, List.filter_nil, List.append_nil] at hcontent
              exact readingOf_found h.evolves hcontent hg
            next => cases hg
          | link target =>
            exact absurd hnode (hground.free _ (reach_of_front (by simp) hpre hback) _)

/-- And so does a walk that passes to the ground first. -/
lemma Sprouts.reading {fuel : Nat} :
    ∀ {links : Nat} {place : Place} {names way : List String} {data? : Option ByteArray},
      t.Passes place way base → Path.proper names = way ++ path →
      readingOf g (g.walkFrom true fuel links place names) = .ok data? →
      readingOf t (t.walkFrom true fuel links place names) = .ok data? := by
  -- the way to the ground gets shorter at each name, and longer only by the target of a link
  induction fuel with
  | zero =>
    intro links place names way data? _ _ hg
    cases hg
  | succ fuel ih =>
    intro links place names way data? hp hs hg
    cases way with
    | nil =>
      cases hp
      -- the ground is reached, and what is behind it is known
      have hbehind : readingOf g (g.walkFrom true (fuel + 1) links (base ++ []) names) = .ok data? →
          readingOf t (t.walkFrom true (fuel + 1) links (base ++ []) names) = .ok data? :=
        h.reading_behind hpath hback hrooted hground hcontent hs
      rw [List.append_nil] at hbehind
      exact hbehind hg
    | cons next way =>
      cases names with
      | nil => simp [Path.proper] at hs
      | cons name rest =>
        by_cases htrivial : name = "" ∨ name = "."
        · simp only [walkFrom, if_pos htrivial] at hg ⊢
          rw [Path.proper_cons_trivial _ htrivial] at hs
          exact ih hp hs hg
        rw [Path.proper_cons _ htrivial, List.cons_append, List.cons.injEq] at hs
        obtain ⟨rfl, hs⟩ := hs
        simp only [walkFrom, if_neg htrivial] at hg ⊢
        cases hp with
        | up hp =>
          simp only [↓reduceIte] at hg ⊢
          exact ih hp hs hg
        | down hup hnode hp =>
          simp only [if_neg hup, h.evolves.directory hnode, hnode] at hg ⊢
          split at hg
          · cases hg
          next hsize =>
            rw [if_neg hsize]
            exact ih hp hs hg
        | @follow _ _ target _ _ hup hnode hp =>
          simp only [if_neg hup, h.link hground hnode, hnode, Bool.not_true, Bool.and_false,
            Bool.false_eq_true, ↓reduceIte] at hg ⊢
          split at hg
          · cases hg
          next hsize =>
            rw [if_neg hsize]
            split at hg
            · cases hg
            · split at hg
              next htarget =>
                rw [if_pos htarget]
                exact hg
              next htarget =>
                rw [if_neg htarget]
                refine ih hp ?_ hg
                rw [Path.proper_append, Path.proper_steps, hs, List.append_assoc]

end

/-! ## Directories in the way -/

section

variable {path : String} (h : ∀ a, IsAncestor a path → ∀ t', t.makeDirectory a ≠ .ok t')

include h

/-- Where the ground is blocked, to look for missing directories makes none. -/
lemma missingAncestors_still {above missing missing' : List String} {t' : FileTree}
    (hon : ∀ a ∈ above ++ missing, IsAncestor a path)
    (hmade : t.missingAncestors above missing = .ok (t', missing')) :
    t' = t ∧ ∀ a ∈ missing', IsAncestor a path := by
  -- on the ancestors that are still to be tried; none of them can be made
  induction above generalizing missing with
  | nil =>
    cases hmade
    exact ⟨rfl, hon⟩
  | cons first above ih =>
    have hrest : ∀ a ∈ missing, IsAncestor a path :=
      fun a hm => hon a (List.mem_append_right _ hm)
    simp only [missingAncestors] at hmade
    split at hmade
    · cases hmade
      exact ⟨rfl, hrest⟩
    · split at hmade
      next hfirst => exact absurd hfirst (h first (hon first (by simp)) _)
      next =>
        refine ih (fun a hm => hon a ?_) hmade
        simp only [List.cons_append, List.mem_cons, List.mem_append] at hm ⊢
        tauto
      next =>
        split at hmade
        · cases hmade
          exact ⟨rfl, hrest⟩
        · cases hmade
      next => cases hmade

/-- Nor can any of them be made. -/
lemma makeEach_still {paths : List String} (hon : ∀ a ∈ paths, IsAncestor a path) :
    (t.makeEach paths).1 = t := by
  induction paths with
  | nil => rfl
  | cons first rest ih =>
    simp only [makeEach]
    split
    next hfirst => exact absurd hfirst (h first (hon first List.mem_cons_self) _)
    next =>
      split
      · exact ih fun a hm => hon a (List.mem_cons_of_mem _ hm)
      · rfl

/-- Where no directory on the way can be made, none is made. -/
lemma makeDirectories_still : (t.makeDirectories path).1 = t := by
  simp only [makeDirectories]
  split
  next => rfl
  next t' missing hmade =>
    obtain ⟨rfl, hon⟩ := missingAncestors_still h (fun a ha => by
      rw [List.append_nil] at ha
      exact isAncestor_of_mem_ancestors ha) hmade
    exact makeEach_still h hon

end

section

variable {path : String} {below : List String}
  (hnames : Path.names path = Path.names output ++ below)
  (habs : Path.isAbsolute path = Path.isAbsolute output)

include hnames habs

/-- Nothing is made where something is in the way. -/
lemma Blocked.makeDirectory (h : t.Blocked output) {above : String} (ha : IsAncestor above path) :
    t.makeDirectory above ≠ .ok g := by
  intro hmade
  obtain ⟨front, name, more, base, hout, hpasses, hup, hnode, hstops⟩ := h
  obtain ⟨goal, last, ⟨stem, hstem, hlast, hp⟩, hvacant, _⟩ := makeDirectory_ok hmade
  rw [start_eq (ha.2.trans habs)] at hp
  have hpre : stem ++ [last] <+: (front ++ [name]) ++ (more ++ below) := by
    have := ha.1
    rw [hstem, hnames, hout] at this
    simpa using this
  -- the directory stands at the name that stops the way, above it, or behind it
  rcases List.prefix_or_prefix_of_prefix hpre (List.prefix_append (front ++ [name]) _) with
    hin | hin
  · rcases List.prefix_concat_iff.1 hin with hsame | hin
    · obtain ⟨rfl, hname⟩ := List.append_inj' hsame rfl
      cases hname
      rw [hp.leads_same.unique hpasses.leads_same] at hvacant
      exact hnode hvacant
    · obtain ⟨rest, rfl⟩ := hin
      obtain ⟨mid, hmid, _⟩ := hpasses.split rfl
      exact hmid.entry hp.leads_same hlast.ne_up hvacant
  · rcases List.prefix_concat_iff.1 hin with hsame | hin
    · obtain ⟨rfl, hname⟩ := List.append_inj' hsame rfl
      cases hname
      rw [← hp.leads_same.unique hpasses.leads_same] at hnode
      exact hnode hvacant
    · obtain ⟨rest, rfl⟩ := hin
      obtain ⟨mid, hmid, _⟩ := hp.split rfl
      exact hstops mid hmid

/-- And no path goes on to an entry behind it. -/
lemma Blocked.hasEntry (h : t.Blocked output) (hne : below ≠ []) {place : Place} {name : String} :
    ¬ t.HasEntry path place name := by
  rintro ⟨above, habove, _, hp⟩
  obtain ⟨front, stop, more, base, hout, _, _, _, hstops⟩ := h
  obtain ⟨stem, last, rfl⟩ : ∃ stem last, below = stem ++ [last] :=
    ⟨_, _, (List.dropLast_append_getLast hne).symm⟩
  rw [hnames, hout, ← List.append_assoc] at habove
  obtain ⟨rfl, _⟩ := List.append_inj' habove rfl
  have hsplit : front ++ stop :: more ++ stem = (front ++ [stop]) ++ (more ++ stem) := by simp
  rw [start_eq habs] at hp
  obtain ⟨mid, hmid, _⟩ := hp.split hsplit
  exact hstops mid hmid

end

/-! ## What writing below a directory makes of a tree -/

/-- What a tree may have become when files with the names `taken` were written below a directory.
Where something is in the way, nothing at all was done. -/
inductive WrittenBelow (t : FileTree) (output : String) (taken : List (List String)) :
    FileTree → Prop
  | blocked : t.Blocked output → WrittenBelow t output taken t
  | sprouts {front back : List String} {base : Place} {g : FileTree} :
    t.Ground output front back base → t.Sprouts base back taken g → WrittenBelow t output taken g

/-- At first nothing is written below the output directory. -/
lemma Rooted.writtenBelow (h : t.Rooted) (hup : t.UpwardsFromThere output)
    (hfree : ∀ base, t.LeadsTo output base → t.LinkFree base) : t.WrittenBelow output [] t := by
  rcases ground_or_blocked h hup hfree with ⟨front, back, base, hground⟩ | hblocked
  · exact .sprouts hground (.refl t base back)
  · exact .blocked hblocked

section

variable {path : String} {below : List String} (hbelow : ".." ∉ below)
  (hnames : Path.names path = Path.names output ++ below)
  (habs : Path.isAbsolute path = Path.isAbsolute output) (h : t.WrittenBelow output taken g)

include hbelow hnames habs h

/-- The directories above a file may be made. -/
lemma WrittenBelow.makeDirectories {above : String} (ha : IsAncestor above path) :
    t.WrittenBelow output taken (g.makeDirectories above).1 := by
  cases h with
  | blocked hblocked =>
    rw [makeDirectories_still fun a hother t' =>
      hblocked.makeDirectory hnames habs ⟨hother.1.trans ha.1, hother.2.trans ha.2⟩]
    exact .blocked hblocked
  | sprouts hground hsprouts =>
    refine .sprouts hground (hsprouts.grow hground hbelow hnames habs ?_)
    refine (g.makeDirectories_grows above).mono fun place => ?_
    rintro ⟨stem, name, goal, hpre, hup, hleads, hplace⟩
    exact ⟨stem, name, goal, hpre.trans ha.1, hup, start_eq ha.2 ▸ hleads, hplace⟩

/-- Then the file itself is written. -/
lemma WrittenBelow.replace (hne : below ≠ []) {chance : WriteChance} {data : ByteArray}
    (hput : g.replace chance path data = (g', .ok ())) :
    t.WrittenBelow output (below :: taken) g' := by
  obtain ⟨place, name, mode, hentry, _, _, hdir, rfl⟩ := replace_ok hput
  cases h with
  | blocked hblocked => exact absurd hentry (hblocked.hasEntry hnames habs hne)
  | sprouts hground hsprouts =>
    exact .sprouts hground (hsprouts.put hground hbelow hnames habs hne hentry hdir data mode)

/-- A path to none of the files reads what it read before, unless its reading fails now. -/
lemma WrittenBelow.reading (hrooted : t.Rooted) (hnew : below ∉ taken) {data? : Option ByteArray}
    (hread : readingOf g (g.walk true path) = .ok data?) :
    readingOf t (t.walk true path) = .ok data? := by
  cases h with
  | blocked => exact hread
  | @sprouts front back base _ hground hsprouts =>
    have hcontent :
        g.content? (base ++ (back ++ below)) = t.content? (base ++ (back ++ below)) := by
      refine hsprouts.content _ fun names hn hsame => hnew ?_
      rwa [List.append_cancel_left (List.append_cancel_left hsame)]
    have hpasses : t.Passes (start t.workingDirectory path) front base := by
      rw [start_eq habs]
      exact hground.passes
    have hproper : Path.proper (steps path) = front ++ (back ++ below) := by
      rw [Path.proper_steps, hnames, hground.names, List.append_assoc]
    simp only [walk, walkNames, hsprouts.evolves.workingDirectory] at hread ⊢
    split at hread
    · cases hread
    next hnul =>
      rw [if_neg hnul]
      split at hread
      next hempty =>
        rw [if_pos hempty]
        exact hread
      next hempty =>
        rw [if_neg hempty]
        split at hread
        · cases hread
        next hsize =>
          rw [if_neg hsize]
          exact hsprouts.reading (by simp [hground.straight, hbelow]) (List.prefix_append ..)
            hrooted hground hcontent hpasses hproper hread

end

end ConfigPack.FileTree
