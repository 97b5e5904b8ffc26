import ConfigPack.FileTree.Canonical
import ConfigPack.Proofs.FileTree.Sound
import ConfigPack.Proofs.Utf8

/-!
# Where canonical paths lead

A canonical path is found by the rules of walks (`reaches_of_canonical`), so it leads where the path
itself leads.  Through directories it is found exactly where every place on the way is near enough
to the root to be asked for (`Enters.canonical`, `EntryIn.canonical_file`).
-/

namespace ConfigPack.FileTree

variable {t : FileTree}

/-! ## What is found -/

/-- Names that are taken one after the other are walked by the rules. -/
lemma walks_of_resolveFrom {fuel : Nat} :
    ∀ {links place names goal}, t.resolveFrom fuel links place names = .ok goal →
      t.Walks true links place names (.found goal) := by
  -- on the fuel, as for a walk, but nothing may be missing here
  induction fuel with
  | zero =>
    intro links place names goal h
    simp [resolveFrom] at h
  | succ fuel ih =>
    intro links place names goal h
    cases names with
    | nil =>
      simp only [resolveFrom, Except.ok.injEq] at h
      subst h
      exact .arrive
    | cons name rest =>
      simp only [resolveFrom] at h
      split at h
      next ht => exact .stay ht (ih h)
      next ht =>
        split at h
        next hup =>
          subst hup
          exact .up (ih h)
        next hup =>
          have hentry : IsEntryName name := ⟨fun e => ht (.inl e), fun e => ht (.inr e), hup⟩
          split at h
          · cases h
          next hsize =>
            have hsize : FileName.size name ≤ maxName := Nat.not_lt.1 fun e => hsize (.inr e)
            split at h
            · cases h
            next e => exact .enter hentry hsize e (ih h)
            next e =>
              split at h
              next hrest =>
                cases h
                cases List.isEmpty_iff.1 hrest
                exact .file hentry hsize e
              next => cases h
            next target e =>
              split at h
              · cases h
              · split at h
                · cases h
                next htarget =>
                  exact .follow hentry hsize e (.inr rfl) (by simpa using htarget) (ih h)

/-- What has a canonical path is reached by the path. -/
lemma reaches_of_canonical {path : String} {place : Place} (h : t.canonical path = .ok place) :
    t.Reaches path place := by
  rw [canonical] at h
  split at h
  · cases h
  next hnul =>
    split at h
    · cases h
    · exact ⟨by simpa using hnul, walks_of_resolveFrom h⟩

/-! ## What can be found -/

/-- Whether every place to which names lead is near enough to the root to be asked for. -/
def ShortWay : Place → List String → Prop
  | _, [] => True
  | place, name :: rest =>
    if name = ".." then ShortWay place.dropLast rest
    else placeSize (place ++ [name]) < pathLimit ∧ ShortWay (place ++ [name]) rest

instance decidableShortWay : ∀ place names, Decidable (ShortWay place names)
  | _, [] => inferInstanceAs (Decidable True)
  | place, name :: rest =>
    have := decidableShortWay place.dropLast rest
    have := decidableShortWay (place ++ [name]) rest
    inferInstanceAs (Decidable (if name = ".." then _ else _ ∧ _))

/-- The front of a short way is short. -/
lemma ShortWay.of_append {a b : List String} :
    ∀ {place}, ShortWay place (a ++ b) → ShortWay place a := by
  induction a with
  | nil => exact fun _ => trivial
  | cons name rest ih =>
    intro place h
    rw [List.cons_append, ShortWay] at h
    rw [ShortWay]
    split
    next hup => exact ih (by rwa [if_pos hup] at h)
    next hup =>
      rw [if_neg hup] at h
      exact ⟨h.1, ih h.2⟩

variable {place goal : Place} {links : Nat}

/-- A way through directories is short up to its last name when it is so before. -/
lemma Enters.shortWay_concat {names : List String} {last : String}
    (h : t.Enters place names goal) (hlast : last ≠ "..") :
    ShortWay place (names ++ [last]) ↔
      ShortWay place names ∧ placeSize (goal ++ [last]) < pathLimit := by
  induction h with
  | here => simp [ShortWay, hlast]
  | up _ ih => simpa [ShortWay] using ih
  | down hup _ _ _ ih => simp [ShortWay, hup, ih, and_assoc]

/-- Names that lead through directories are taken exactly when their way is short. -/
lemma Enters.resolveFrom (fuel links : Nat) {steps : List String} (rest : List String) :
    ∀ {place}, t.Enters place (Path.proper steps) goal →
      t.resolveFrom (fuel + steps.length) links place (steps ++ rest) =
        if ShortWay place (Path.proper steps) then t.resolveFrom fuel links goal rest
        else .error .nameTooLong := by
  induction steps with
  | nil =>
    intro place h
    cases h
    rfl
  | cons name steps ih =>
    intro place h
    rw [List.length_cons, ← Nat.add_assoc, List.cons_append, FileTree.resolveFrom]
    by_cases htrivial : name = "" ∨ name = "."
    · rw [Path.proper_cons_trivial _ htrivial] at h ⊢
      rw [if_pos htrivial]
      exact ih h
    rw [Path.proper_cons _ htrivial] at h ⊢
    rw [if_neg htrivial]
    cases h with
    | up h =>
      rw [if_pos rfl, ih h]
      simp only [ShortWay, ↓reduceIte]
    | down hup hsize hdir h =>
      rw [if_neg hup]
      by_cases hnear : placeSize (place ++ [name]) < pathLimit
      · simp only [Nat.not_le.2 hnear, Nat.not_lt.2 hsize, or_self, hdir,
          ↓reduceIte, ih h, ShortWay, hup, hnear, true_and]
      · simp only [Nat.not_lt.1 hnear, true_or, ↓reduceIte, ShortWay, hup, hnear,
          false_and]

variable {path : String}

/-- The steps of a path that is taken are fewer than a canonical path may take. -/
lemma Fits.canonical (h : Fits path) :
    ∃ fuel, t.canonical path = t.resolveFrom (fuel + 2 + (steps path).length) maxLinks
      (start t.workingDirectory path) (steps path) := by
  have hlen := h.length_steps
  have hempty : path.isEmpty = false := by simpa using h.ne_empty
  refine ⟨path.utf8ByteSize + walkFuel - (steps path).length - 2, ?_⟩
  rw [FileTree.canonical, h.hasNul, hempty, if_neg (by simp), if_neg (by simp)]
  congr 1
  simp only [walkFuel, pathLimit] at hlen ⊢
  omega

/-- The canonical path of a directory that is reached through directories. -/
lemma Enters.canonical (h : t.Enters (start t.workingDirectory path) (Path.names path) place)
    (hfits : Fits path) :
    t.canonical path =
      if ShortWay (start t.workingDirectory path) (Path.names path) then .ok place
      else .error .nameTooLong := by
  obtain ⟨fuel, hcanonical⟩ := hfits.canonical (t := t)
  rw [← Path.proper_steps] at h ⊢
  have hresolve := h.resolveFrom (fuel + 2) maxLinks []
  rw [List.append_nil] at hresolve
  rw [hcanonical, hresolve]
  rfl

variable {directory : Place} {name : String}

/-- The canonical path of a file in a directory that is reached through directories. -/
lemma EntryIn.canonical_file (h : t.EntryIn path directory name) {data : ByteArray} {mode : Nat}
    (hfile : t.node? (directory ++ [name]) = some (.file data mode)) :
    t.canonical path =
      if ShortWay (start t.workingDirectory path) (Path.names path) then .ok (directory ++ [name])
      else .error .nameTooLong := by
  obtain ⟨above, hends, henters⟩ := h.way
  have hnames := hends.names h.isEntryName.not_trivial
  obtain ⟨front, hfront, hsteps, -⟩ := steps_of_endsIn hends h.isEntryName
  obtain ⟨fuel, hcanonical⟩ := h.fits.canonical (t := t)
  rw [hsteps, List.length_append, List.length_singleton, Nat.add_comm front.length,
    ← Nat.add_assoc] at hcanonical
  rw [← hfront] at henters
  simp only [hcanonical, henters.resolveFrom, hnames, ← hfront,
    henters.shortWay_concat h.isEntryName.ne_up, FileTree.resolveFrom]
  by_cases hway : ShortWay (start t.workingDirectory path) (Path.proper front)
  · by_cases hnear : placeSize (directory ++ [name]) < pathLimit
    · simp only [hway, hnear, Nat.not_le.2 hnear, Nat.not_lt.2 h.size, h.isEntryName.not_trivial,
        h.isEntryName.ne_up, hfile, or_self, and_self, ↓reduceIte,
        List.isEmpty_nil]
    · simp only [hway, hnear, Nat.not_lt.1 hnear, h.isEntryName.not_trivial, h.isEntryName.ne_up,
        true_or, and_false, ↓reduceIte]
  · simp only [hway, false_and, ↓reduceIte]

/-- At the end of a short way a file is near enough to be read. -/
lemma EntryIn.near (h : t.EntryIn path directory name)
    (hway : ShortWay (start t.workingDirectory path) (Path.names path)) :
    placeSize (directory ++ [name]) < pathLimit := by
  obtain ⟨above, hends, henters⟩ := h.way
  rw [hends.names h.isEntryName.not_trivial] at hway
  exact ((henters.shortWay_concat h.isEntryName.ne_up).1 hway).2

/-! ## Reading -/

/-- A text is read where a file has its bytes. -/
lemma readTextAt_eq_ok {text : String} :
    t.readTextAt place = .ok text ↔ ∃ mode, t.node? place = some (.file text.toUTF8 mode) := by
  rw [readTextAt, Result.bind_eq_ok]
  constructor
  · rintro ⟨data, hread, h⟩
    rw [readAt] at hread
    split at hread
    next mode hnode =>
      cases hread
      split at h
      next hdecode =>
        cases h
        rw [Utf8.decode_eq_ok] at hdecode
        exact ⟨mode, hdecode ▸ hnode⟩
      next => cases h
    all_goals cases hread
  · rintro ⟨mode, hnode⟩
    refine ⟨text.toUTF8, by simp only [readAt, hnode], ?_⟩
    rw [Utf8.decode_eq_ok.2 rfl]
    rfl

/-- The text of the file that an absolute path names. -/
lemma readTextFrom_eq_ok {text : String} :
    t.readTextFrom place = .ok text ↔
      placeSize place < pathLimit ∧ ∃ mode, t.node? place = some (.file text.toUTF8 mode) := by
  rw [readTextFrom]
  split
  next hfar => simp [Nat.not_lt.2 hfar]
  next hnear => rw [readTextAt_eq_ok, and_iff_right (Nat.not_le.1 hnear)]

end ConfigPack.FileTree
