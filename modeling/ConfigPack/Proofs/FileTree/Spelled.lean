import ConfigPack.Proofs.FileTree.Enter

/-!
# Paths spelled by names

Names of entries with single slashes between them spell a relative path.  Taken in a directory, such
paths are put together name by name.
-/

namespace ConfigPack.FileTree

/-- Names under which entries stand. -/
def AreEntries (names : List String) : Prop :=
  ∀ name ∈ names, IsEntryName name ∧ '/' ∉ name.toList

/-- The path that names spell. -/
def spelled (names : List String) : String := "/".intercalate names

variable {names more : List String} {name directory : String}

/-- Names of entries may follow others. -/
lemma AreEntries.append (h : AreEntries names) (h' : AreEntries more) :
    AreEntries (names ++ more) := by
  intro x hx
  rcases List.mem_append.1 hx with hx | hx
  · exact h x hx
  · exact h' x hx

/-- The first of them are names of entries. -/
lemma AreEntries.of_append_left (h : AreEntries (names ++ more)) : AreEntries names :=
  fun x hx => h x (List.mem_append_left _ hx)

/-- So are the last. -/
lemma AreEntries.of_append_right (h : AreEntries (names ++ more)) : AreEntries more :=
  fun x hx => h x (List.mem_append_right _ hx)

/-- They have no slashes. -/
lemma AreEntries.slash (h : AreEntries names) : ∀ s ∈ names, '/' ∉ s.toList :=
  fun s hs => (h s hs).2

/-- None of them is trivial. -/
lemma AreEntries.proper (h : AreEntries names) : Path.proper names = names := by
  rw [Path.proper, List.filter_eq_self]
  intro s hs
  obtain ⟨hentry, _⟩ := h s hs
  simp [Path.isTrivial, hentry.ne_empty, hentry.ne_dot]

/-- The names that spell a path are its names. -/
lemma AreEntries.names_spelled (h : AreEntries names) : Path.names (spelled names) = names := by
  rw [spelled, Path.names_intercalate h.slash, h.proper]

/-- Different names spell different paths. -/
lemma eq_of_spelled {names' : List String} (h : AreEntries names) (h' : AreEntries names')
    (hspelled : spelled names = spelled names') : names = names' := by
  rw [← h.names_spelled, hspelled, h'.names_spelled]

/-- Their path is not empty. -/
lemma AreEntries.spelled_ne_empty (h : AreEntries names) (hne : names ≠ []) :
    spelled names ≠ "" := by
  intro he
  have hnames := h.names_spelled
  rw [he, Path.names_empty] at hnames
  exact hne hnames.symm

/-- It is relative. -/
lemma AreEntries.isAbsolute (h : AreEntries names) : Path.isAbsolute (spelled names) = false := by
  cases names with
  | nil => simp [spelled]
  | cons first rest =>
    obtain ⟨hentry, hslash⟩ := h first List.mem_cons_self
    rw [spelled, Path.isAbsolute_intercalate hslash]
    simp [hentry.ne_empty]

/-- It stays inside the directory it is taken in. -/
lemma AreEntries.staysInside (h : AreEntries names) : Path.staysInside (spelled names) = true := by
  rw [Path.staysInside_iff, h.names_spelled]
  exact ⟨h.isAbsolute, fun hup => (h _ hup).1.ne_up rfl⟩

/-- It ends in the last of them. -/
lemma AreEntries.endsIn (h : AreEntries (names ++ [name])) :
    Path.EndsIn (spelled (names ++ [name])) names name := by
  refine ⟨names, ?_, h.of_append_left.proper⟩
  rw [spelled, Path.segments_intercalate (by simp) h.slash]

/-- The path of more names goes on behind a slash. -/
lemma spelled_append (hnames : names ≠ []) (hmore : more ≠ []) :
    spelled (names ++ more) = spelled names ++ "/" ++ spelled more := by
  rw [spelled, String.intercalate_append_of_ne_nil hnames hmore]
  rfl

/-- No slash ends a spelled path. -/
lemma AreEntries.getLast? (h : AreEntries names) :
    (spelled names).toList.getLast? ≠ some '/' := by
  rcases List.eq_nil_or_concat names with rfl | ⟨front, last, rfl⟩
  · simp [spelled]
  rw [List.concat_eq_append] at h ⊢
  obtain ⟨hentry, hslash⟩ := h last (by simp)
  have hlast : last.toList ≠ [] := fun he => hentry.ne_empty (String.toList_eq_nil_iff.1 he)
  have hend : ∃ text, spelled (front ++ [last]) = text ++ last := by
    by_cases hfront : front = []
    · subst hfront
      exact ⟨"", by simp [spelled]⟩
    · rw [spelled_append hfront (by simp)]
      exact ⟨spelled front ++ "/", by simp [spelled]⟩
  obtain ⟨text, htext⟩ := hend
  rw [htext, String.toList_append, List.getLast?_append_of_ne_nil _ hlast]
  exact fun he => hslash (List.mem_of_getLast? he)

/-- What is put behind a path is put behind the joined one. -/
lemma join_append {path : String} (hne : path ≠ "") (rest : String) :
    Path.join directory (path ++ rest) = Path.join directory path ++ rest := by
  simp only [Path.join, Path.isAbsolute_append hne]
  split
  · rfl
  · split <;> simp only [String.append_assoc]

/-- A path in a directory that is spelled itself. -/
lemma AreEntries.join_join (h : AreEntries names) (hne : names ≠ []) {path : String}
    (hrel : Path.isAbsolute path = false) :
    Path.join (Path.join directory (spelled names)) path =
      Path.join directory (spelled names ++ "/" ++ path) := by
  have hspelled := h.spelled_ne_empty hne
  obtain ⟨text, htext⟩ := Path.exists_join directory (spelled names)
  have hnonempty : (spelled names).toList ≠ [] := fun he => hspelled (String.toList_eq_nil_iff.1 he)
  have hlast : (Path.join directory (spelled names)).toList.getLast? ≠ some '/' := by
    rw [htext, String.toList_append, List.getLast?_append_of_ne_nil _ hnonempty]
    exact h.getLast?
  have hempty : (Path.join directory (spelled names)).isEmpty = false := by
    rw [htext]
    simp [hspelled]
  rw [String.append_assoc, join_append hspelled, Path.join, hrel, hempty]
  simp [hlast, String.append_assoc]

/-- One more name. -/
lemma AreEntries.join_name (h : AreEntries (names ++ [name])) (hne : names ≠ []) :
    Path.join (Path.join directory (spelled names)) name =
      Path.join directory (spelled (names ++ [name])) := by
  have hname : Path.isAbsolute name = false := by
    have := h.of_append_right.isAbsolute
    simpa [spelled] using this
  rw [h.of_append_left.join_join hne hname, spelled_append hne (by simp)]
  simp [spelled]

/-- The way to a path that can be taken can be taken. -/
lemma AreEntries.fits (h : AreEntries names) (hne : names ≠ [])
    (hfits : Fits (Path.join directory (spelled (names ++ more)))) :
    Fits (Path.join directory (spelled names)) := by
  by_cases hmore : more = []
  · rwa [hmore, List.append_nil] at hfits
  have hspelled := h.spelled_ne_empty hne
  rw [spelled_append hne hmore, String.append_assoc, join_append hspelled] at hfits
  refine hfits.of_append fun he => ?_
  have hnames : Path.names (Path.join directory (spelled names)) = _ :=
    Path.names_join h.isAbsolute
  rw [he, Path.names_empty, h.names_spelled] at hnames
  exact hne (List.append_eq_nil_iff.1 hnames.symm).2

end ConfigPack.FileTree
