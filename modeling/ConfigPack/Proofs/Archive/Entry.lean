import ConfigPack.Archive.Entries
import ConfigPack.Proofs.Dict

/-!
# The entry of a name

The members of an archive have different names.  So looking up the entry of one name gives what a
reading of all entries has under it (`entry?_eq_find?`).
-/

namespace ConfigPack.Archive

variable {data : ByteArray} {name : String} {m : Member} {members : List Member}
  {found found' : Dict ByteArray}

/-- A member adds its name to a list. -/
lemma mem_names_place {members : List Member} :
    name ∈ (place m members).map Member.name ↔ name = m.name ∨ name ∈ members.map Member.name := by
  induction members with
  | nil => simp [place]
  | cons first rest ih =>
    rw [place]
    split
    next hsame => simp [hsame]
    next =>
      rw [List.map_cons, List.mem_cons, ih, List.map_cons, List.mem_cons]
      tauto

/-- A member takes the place of one with its name. -/
lemma nodup_place {members : List Member} (h : (members.map Member.name).Nodup) :
    ((place m members).map Member.name).Nodup := by
  induction members with
  | nil => simp [place]
  | cons first rest ih =>
    obtain ⟨hfirst, hrest⟩ := List.nodup_cons.1 h
    rw [place]
    split
    next hsame => exact List.nodup_cons.2 ⟨hsame ▸ hfirst, hrest⟩
    next hother =>
      refine List.nodup_cons.2 ⟨fun hmem => ?_, ih hrest⟩
      rcases mem_names_place.1 hmem with hsame | hmem
      · exact hother hsame
      · exact hfirst hmem

/-- No two members of a directory have one name. -/
lemma nodup_directory (h : directory data = .ok members) : (members.map Member.name).Nodup := by
  rw [directory] at h
  split at h
  next all _ =>
    cases h
    have hfold : ∀ (all start : List Member), (start.map Member.name).Nodup →
        ((all.foldl (fun found m => place m found) start).map Member.name).Nodup := by
      intro all
      induction all with
      | nil => exact fun _ hstart => hstart
      | cons m all ih => exact fun start hstart => ih _ (nodup_place hstart)
    exact hfold all [] .nil
  next => cases h

/-- What a member adds to the entries: nothing when it stands for a directory, else its content. -/
lemma addEntry_ok (h : addEntry data found m = .ok found') :
    m.isDirectory = true ∧ found' = found ∨
      m.isDirectory = false ∧ isSafeName m.name = true ∧
        ∃ content, m.content data = .ok content ∧ found' = found.insert m.name content := by
  obtain ⟨_, _, h⟩ := Result.bind_eq_ok.1 h
  cases hdirectory : m.isDirectory with
  | true =>
    rw [hdirectory] at h
    cases h
    exact .inl ⟨rfl, rfl⟩
  | false =>
    rw [hdirectory] at h
    by_cases hname : (Path.hasNul m.name || !isSafeName m.name) = true
    · simp only [hname, if_true, Bool.false_eq_true, if_false] at h
      cases h
    · simp only [hname, Bool.false_eq_true, if_false] at h
      obtain ⟨content, hcontent, h⟩ := Result.bind_eq_ok.1 h
      cases h
      simp only [Bool.or_eq_true, Bool.not_eq_true', not_or] at hname
      exact .inr ⟨rfl, by simpa using hname.2, content, hcontent, rfl⟩

/-- The members that stand for files can all be read, and the entries are theirs. -/
lemma foldlM_addEntry_ok :
    ∀ {members : List Member} {start : Dict ByteArray}, (members.map Member.name).Nodup →
      members.foldlM (addEntry data) start = .ok found →
      (∀ m ∈ members, m.isDirectory = false → ∃ content, m.content data = .ok content) ∧
      ∀ e, e ∈ found.entries ↔
        (∃ m ∈ members, m.isDirectory = false ∧ m.name = e.1 ∧ m.content data = .ok e.2) ∨
          e ∈ start.entries ∧ ∀ m ∈ members, m.isDirectory = false → m.name ≠ e.1
  | [], start, _, h => by
    cases h
    simp
  | m :: members, start, hnodup, h => by
    obtain ⟨hfirst, hrest⟩ := List.nodup_cons.1 hnodup
    rw [List.foldlM_cons] at h
    obtain ⟨next, hnext, h⟩ := Result.bind_eq_ok.1 h
    obtain ⟨hread, hmem⟩ := foldlM_addEntry_ok hrest h
    -- so no member behind this one takes its entry away
    have hlater : ∀ x ∈ members, x.name ≠ m.name :=
      fun x hx hsame => hfirst (hsame ▸ List.mem_map_of_mem hx)
    rw [List.forall_mem_cons]
    rcases addEntry_ok hnext with ⟨hdir, rfl⟩ | ⟨hfile, _, content, hcontent, rfl⟩
    · refine ⟨⟨fun hfile => ?_, hread⟩, fun e => ?_⟩
      · rw [hdir] at hfile
        cases hfile
      · rw [hmem, List.exists_mem_cons_iff, List.forall_mem_cons]
        simp [hdir]
    refine ⟨⟨fun _ => ⟨content, hcontent⟩, hread⟩, fun e => ?_⟩
    rw [hmem, List.exists_mem_cons_iff, List.forall_mem_cons, Dict.mem_insert]
    constructor
    · rintro (h | ⟨rfl | ⟨h, hne⟩, hnone⟩)
      · exact .inl (.inr h)
      · exact .inl (.inl ⟨hfile, rfl, hcontent⟩)
      · exact .inr ⟨h, fun _ => hne.symm, hnone⟩
    · rintro ((⟨_, hname, hvalue⟩ | h) | ⟨h, hne, hnone⟩)
      · rw [hcontent] at hvalue
        injection hvalue with hvalue
        exact .inr ⟨.inl (Prod.ext hname.symm hvalue.symm), fun x hx _ => hname ▸ hlater x hx⟩
      · exact .inl h
      · exact .inr ⟨.inr ⟨h, (hne hfile).symm⟩, hnone⟩

/-- Looking up the entry of a name that is no directory gives what all entries have under it. -/
lemma entry?_eq_find? (h : entries data = .ok found)
    (hname : name.toList.getLast? ≠ some '/' ∧ name.toList.getLast? ≠ some '\\') :
    entry? data name = .ok (found.find? name) := by
  obtain ⟨members, hmembers, h⟩ := Result.bind_eq_ok.1 h
  obtain ⟨hread, hmem⟩ := foldlM_addEntry_ok (nodup_directory hmembers) h
  have hfile : ∀ m : Member, m.name = name → m.isDirectory = false := by
    rintro m rfl
    simp [Member.isDirectory, hname]
  cases hfind : members.find? fun m => m.name = name with
  | some m =>
    have hm := List.mem_of_find?_eq_some hfind
    have hsame : m.name = name := by simpa using List.find?_some hfind
    obtain ⟨content, hcontent⟩ := hread m hm (hfile m hsame)
    have hentry : (name, content) ∈ found.entries :=
      (hmem _).2 (.inl ⟨m, hm, hfile m hsame, hsame, hcontent⟩)
    simp only [hmembers, entry?, hfind, hcontent, Dict.find?_eq_some_iff.2 hentry, bind,
      Except.bind]
    rfl
  | none =>
    have hmissing : name ∉ found.keys := by
      intro hkey
      obtain ⟨content, he⟩ := Dict.mem_keys.1 hkey
      rcases (hmem _).1 he with ⟨m, hm, _, hsame, _⟩ | ⟨he, _⟩
      · simpa [hsame] using List.find?_eq_none.1 hfind m hm
      · cases he
    simp only [hmembers, entry?, hfind, Dict.find?_eq_none_iff.2 hmissing, bind, Except.bind]
    rfl

end ConfigPack.Archive
