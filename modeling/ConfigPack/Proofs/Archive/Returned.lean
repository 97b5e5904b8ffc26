import ConfigPack.Archive.Entries
import ConfigPack.Proofs.Dict

/-!
# Archives that are read back

When the members of an archive have the names and the contents that were written, its entries are
those that were written, provided that their names are names of files that lead nowhere else.  A
backslash spoils that: a name that ends in one passes for that of a directory, and any other name
with one is refused.
-/

namespace ConfigPack.Archive

variable {data : ByteArray} {d : Dict ByteArray} {name : String} {m : Member} {content : ByteArray}
  {members : List Member} {list : List (String × ByteArray)}

/-- The name and the content of a member. -/
def Member.read (m : Member) (data : ByteArray) : Except Flaw (String × ByteArray) := do
  return (m.name, ← m.content data)

/-- The archive of some entries gives back the names and the contents that were written. -/
def Returned (d : Dict ByteArray) : Prop :=
  (directory (ofEntries d) >>= fun members => members.mapM fun m => m.read (ofEntries d)) =
    .ok d.entries

/-- A name that leads to a file below the directory it is taken in. -/
structure IsInside (name : String) : Prop where
  ne_empty : name ≠ ""
  hasNul : Path.hasNul name = false
  staysInside : Path.staysInside name = true
  last : name.toList.getLast? ≠ some '/'

/-- Whether a name ends in a backslash. -/
def endsInBackslash (name : String) : Bool := name.toList.getLast? == some '\\'

/-- Whether a name has a backslash in front of its end. -/
def hasBackslashInside (name : String) : Bool :=
  name.toList.contains '\\' && !endsInBackslash name

/-- A backslash stands at the end of a name or in front of it. -/
lemma backslash_mem_iff :
    '\\' ∈ name.toList ↔ endsInBackslash name = true ∨ hasBackslashInside name = true := by
  constructor
  · intro h
    cases hends : endsInBackslash name <;> simp [hasBackslashInside, hends, h]
  · rintro (h | h)
    · exact List.mem_of_getLast? (by simpa [endsInBackslash] using h)
    · simp only [hasBackslashInside, List.contains_eq_mem, Bool.and_eq_true,
        decide_eq_true_eq] at h
      exact h.1

/-- A member whose content is read can be opened. -/
lemma checkOpens_of_content (h : m.content data = .ok content) : m.checkOpens data = .ok () := by
  obtain ⟨stored, hstored, h⟩ := Result.bind_eq_ok.1 h
  obtain ⟨_, hunpacked, _⟩ := Result.bind_eq_ok.1 h
  refine Result.bind_eq_ok.2 ⟨stored, hstored, ?_⟩
  have hmethod : m.method = 0 ∨ m.method = 8 := by
    unfold unpacked? at hunpacked
    split at hunpacked
    next hm => exact .inl hm
    next hm => exact .inr hm
    next => cases hunpacked
  rw [if_pos (by simpa using hmethod)]
  rfl

/-- A name inside stands for a directory only with a backslash at its end. -/
lemma IsInside.isDirectory (h : IsInside m.name) : m.isDirectory = endsInBackslash m.name := by
  simp [Member.isDirectory, endsInBackslash, h.last]

/-- It is safe when it has no backslash. -/
lemma IsInside.isSafeName (h : IsInside name) :
    isSafeName name = !name.toList.contains '\\' := by
  simp [Archive.isSafeName, h.ne_empty, h.staysInside]

/-- What is added for a member that is read, by where its name has a backslash. -/
lemma addEntry_eq (hinside : IsInside m.name) (h : m.content data = .ok content)
    (found : Dict ByteArray) :
    addEntry data found m =
      if endsInBackslash m.name then .ok found
      else if hasBackslashInside m.name then .error (.escapes m.name)
      else .ok (found.insert m.name content) := by
  cases hends : endsInBackslash m.name <;> cases hback : m.name.toList.contains '\\' <;>
    simp only [addEntry, checkOpens_of_content h, hinside.isDirectory, hinside.hasNul,
      hinside.isSafeName, hasBackslashInside, hends, hback, h] <;> rfl

/-- Members without a backslash inside their names are taken one after the other, but for those
whose names end in one. -/
lemma foldlM_addEntry (h : List.Forall₂ (fun m e => m.read data = .ok e) members list)
    (hinside : ∀ e ∈ list, IsInside e.1) (hback : ∀ e ∈ list, hasBackslashInside e.1 = false) :
    ∀ found, members.foldlM (addEntry data) found =
      .ok ((list.filter fun e => !endsInBackslash e.1).foldl (fun d e => d.insert e.1 e.2) found) := by
  induction h with
  | nil => exact fun _ => rfl
  | @cons m e members list hfirst _ ih =>
    intro found
    obtain ⟨content, hcontent, he⟩ := Result.bind_eq_ok.1 hfirst
    cases he
    have hstep := addEntry_eq (hinside _ List.mem_cons_self) hcontent found
    have ih := ih (fun x hx => hinside x (List.mem_cons_of_mem _ hx))
      (fun x hx => hback x (List.mem_cons_of_mem _ hx))
    rw [hback _ List.mem_cons_self] at hstep
    rw [List.foldlM_cons, hstep]
    cases hends : endsInBackslash m.name
    · rw [List.filter_cons_of_pos (by simp [hends])]
      exact ih _
    · rw [List.filter_cons_of_neg (by simp [hends])]
      exact ih _

/-- The first member with a backslash inside its name is refused. -/
lemma foldlM_addEntry_refused (h : List.Forall₂ (fun m e => m.read data = .ok e) members list)
    (hinside : ∀ e ∈ list, IsInside e.1) (hback : ∃ e ∈ list, hasBackslashInside e.1 = true) :
    ∃ e ∈ list, hasBackslashInside e.1 = true ∧
      ∀ found, members.foldlM (addEntry data) found = .error (.escapes e.1) := by
  -- on the members: the first name with a backslash inside ends the reading
  induction h with
  | nil =>
    obtain ⟨_, he, _⟩ := hback
    cases he
  | @cons m e members list hfirst _ ih =>
    obtain ⟨content, hcontent, he⟩ := Result.bind_eq_ok.1 hfirst
    cases he
    have hstep := addEntry_eq (hinside _ List.mem_cons_self) hcontent
    by_cases hrefused : hasBackslashInside m.name = true
    · refine ⟨_, List.mem_cons_self, hrefused, fun found => ?_⟩
      have hends : endsInBackslash m.name = false := by
        simpa using (Bool.and_eq_true_iff.1 hrefused).2
      rw [List.foldlM_cons, hstep, hends, hrefused]
      rfl
    · have hlater : ∃ e ∈ list, hasBackslashInside e.1 = true := by
        obtain ⟨x, hx, hxback⟩ := hback
        rcases List.mem_cons.1 hx with rfl | hx
        · exact absurd hxback hrefused
        · exact ⟨x, hx, hxback⟩
      obtain ⟨x, hx, hxback, hall⟩ :=
        ih (fun x hx => hinside x (List.mem_cons_of_mem _ hx)) hlater
      refine ⟨x, List.mem_cons_of_mem _ hx, hxback, fun found => ?_⟩
      have hpass : ∃ next, addEntry data found m = .ok next := by
        rw [hstep, Bool.eq_false_iff.2 hrefused]
        cases endsInBackslash m.name <;> exact ⟨_, rfl⟩
      obtain ⟨next, hnext⟩ := hpass
      rw [List.foldlM_cons, hnext]
      exact hall next

/-- An archive that is read back loses the entries whose names end in a backslash. -/
lemma entries_ofEntries_dropped (h : Returned d) (hinside : ∀ name ∈ d.keys, IsInside name)
    (hback : ∀ name ∈ d.keys, hasBackslashInside name = false) :
    ∃ kept, entries (ofEntries d) = .ok kept ∧
      ∀ e, e ∈ kept.entries ↔ e ∈ d.entries ∧ endsInBackslash e.1 = false := by
  obtain ⟨members, hdirectory, hmembers⟩ := Result.bind_eq_ok.1 h
  have hkey : ∀ e ∈ d.entries, e.1 ∈ d.keys := fun e he => List.mem_map_of_mem he
  have hfold := foldlM_addEntry (Result.mapM_eq_ok.1 hmembers)
    (fun e he => hinside e.1 (hkey e he)) (fun e he => hback e.1 (hkey e he)) .empty
  refine ⟨_, by rw [entries, hdirectory]; exact hfold, fun e => ?_⟩
  rw [Dict.mem_foldl_insert (d.nodup_keys.sublist (List.filter_sublist.map Prod.fst))]
  simp [Dict.empty]

/-- An archive that is read back is refused for a name with a backslash inside. -/
lemma entries_ofEntries_refused (h : Returned d) (hinside : ∀ name ∈ d.keys, IsInside name)
    (hback : ∃ name ∈ d.keys, hasBackslashInside name = true) :
    ∃ name ∈ d.keys, hasBackslashInside name = true ∧
      entries (ofEntries d) = .error (.escapes name) := by
  obtain ⟨members, hdirectory, hmembers⟩ := Result.bind_eq_ok.1 h
  have hkey : ∀ e ∈ d.entries, e.1 ∈ d.keys := fun e he => List.mem_map_of_mem he
  obtain ⟨name, hname, hrefused⟩ := hback
  obtain ⟨content, he⟩ := Dict.mem_keys.1 hname
  obtain ⟨e, he, hrefused, hall⟩ := foldlM_addEntry_refused (Result.mapM_eq_ok.1 hmembers)
    (fun e he => hinside e.1 (hkey e he)) ⟨_, he, hrefused⟩
  exact ⟨e.1, hkey e he, hrefused, by rw [entries, hdirectory]; exact hall .empty⟩

/-- The entries of an archive that is read back are those it was made of. -/
lemma entries_ofEntries (h : Returned d) (hinside : ∀ name ∈ d.keys, IsInside name)
    (hback : ∀ name ∈ d.keys, '\\' ∉ name.toList) : entries (ofEntries d) = .ok d := by
  have hnone : ∀ name ∈ d.keys, endsInBackslash name = false ∧ hasBackslashInside name = false := by
    intro name hname
    have hnot := mt backslash_mem_iff.2 (hback name hname)
    simpa using hnot
  obtain ⟨kept, hkept, hmem⟩ :=
    entries_ofEntries_dropped h hinside fun name hname => (hnone name hname).2
  have hsame : kept = d := Dict.ext_mem fun e =>
    (hmem e).trans (and_iff_left_of_imp fun he => (hnone e.1 (List.mem_map_of_mem he)).1)
  rw [hkept, hsame]

/-- All entries are read back exactly when no name has a backslash. -/
lemma entries_ofEntries_iff (h : Returned d) (hinside : ∀ name ∈ d.keys, IsInside name) :
    entries (ofEntries d) = .ok d ↔ ∀ name ∈ d.keys, '\\' ∉ name.toList := by
  refine ⟨fun hall => ?_, entries_ofEntries h hinside⟩
  have hnone : ∀ name ∈ d.keys, hasBackslashInside name = false := by
    intro name hname
    by_contra hback
    obtain ⟨_, _, _, hrefused⟩ :=
      entries_ofEntries_refused h hinside ⟨name, hname, by simpa using hback⟩
    rw [hall] at hrefused
    cases hrefused
  obtain ⟨kept, hkept, hmem⟩ := entries_ofEntries_dropped h hinside hnone
  rw [hall] at hkept
  cases hkept
  intro name hname hback
  obtain ⟨content, he⟩ := Dict.mem_keys.1 hname
  rcases backslash_mem_iff.1 hback with hends | hrefused
  · exact Bool.false_ne_true (((hmem _).1 he).2.symm.trans hends)
  · exact Bool.false_ne_true ((hnone name hname).symm.trans hrefused)

end ConfigPack.Archive
