import ConfigPack.Proofs.Path
import Mathlib.Data.List.DropRight

/-!
# Parents and ends of paths

What the parent of a path can be is said once (`isParent_of_parent?`).  So the parent has the names
of the path but the last (`names_parent`), the path begins with its text, and when it has names it
ends with the last of them, with no slash or dot behind it.
-/

namespace ConfigPack.Path

/-- Only segments that say nothing are dropped from the end. -/
lemma dropTrivialEnd_eq (kept : Nat) (parts : List String) :
    dropTrivialEnd kept parts = parts.take kept ++ (parts.drop kept).rdropWhile isTrivial := rfl

/-- What is left without a trivial end is the front. -/
lemma prefix_of_dropTrivialEnd (kept : Nat) (parts : List String) :
    dropTrivialEnd kept parts <+: parts := by
  rw [dropTrivialEnd_eq]
  obtain ⟨tail, ht⟩ := List.rdropWhile_prefix isTrivial (parts.drop kept)
  refine ⟨tail, ?_⟩
  rw [List.append_assoc, ht, List.take_append_drop]

/-- The parts at the end that are dropped say nothing. -/
lemma proper_rdropWhile (parts : List String) :
    proper (parts.rdropWhile isTrivial) = proper parts := by
  induction parts using List.reverseRecOn with
  | nil => rfl
  | append_singleton parts last ih =>
    rw [List.rdropWhile_concat]
    split
    next ht =>
      rw [ih, proper_append, proper_cons_trivial [] (isTrivial_iff.1 ht)]
      simp [proper]
    next => rfl

@[simp] lemma proper_dropTrivialEnd (kept : Nat) (parts : List String) :
    proper (dropTrivialEnd kept parts) = proper parts := by
  rw [dropTrivialEnd_eq, proper_append, proper_rdropWhile, ← proper_append, List.take_append_drop]

/-- When more is left than is always kept, the last segment that is left says something. -/
lemma proper_dropLast_dropTrivialEnd {kept : Nat} {parts : List String}
    (h : kept < (dropTrivialEnd kept parts).length) :
    proper (dropTrivialEnd kept parts).dropLast = (proper parts).dropLast := by
  have hne : (parts.drop kept).rdropWhile isTrivial ≠ [] := by
    intro he
    rw [dropTrivialEnd_eq, he, List.append_nil, List.length_take] at h
    omega
  have hlast := List.rdropWhile_last_not isTrivial (parts.drop kept) hne
  rw [← proper_dropTrivialEnd kept parts, dropTrivialEnd_eq]
  rw [← List.dropLast_concat_getLast hne, ← List.append_assoc, List.dropLast_concat,
    proper_append (_ ++ _), proper_cons _ (mt isTrivial_iff.2 hlast)]
  simp [proper]

/-- At most the first segment is kept in any case. -/
lemma keptSegments_le (path : String) : keptSegments path ≤ 1 := by
  rw [keptSegments]
  split
  · exact Nat.le_refl _
  · split
    · exact Nat.le_refl _
    · exact Nat.zero_le _

/-- The first segment of an absolute path is empty. -/
lemma segments_of_isAbsolute {path : String} (h : isAbsolute path = true) :
    (segments path).head? = some "" := by
  have h := beq_iff_eq.1 h
  obtain ⟨cs, hcs⟩ := List.head?_eq_some_iff.1 h
  rw [segments, hcs, splitFrom]
  simp

/-- A text that begins with a segment begins as that segment does. -/
lemma isAbsolute_intercalate {first : String} {rest : List String} (h : '/' ∉ first.toList) :
    isAbsolute ("/".intercalate (first :: rest)) = (first == "" && !rest.isEmpty) := by
  by_cases hf : first = ""
  · subst hf
    cases rest with
    | nil => simp
    | cons next rest =>
      rw [String.intercalate_cons_cons]
      simp [isAbsolute, String.toList_append]
  · have hne : first.toList ≠ [] := fun he => hf (String.toList_eq_nil_iff.1 he)
    obtain ⟨c, cs, hc⟩ := List.exists_cons_of_ne_nil hne
    have hslash : c ≠ '/' := fun he => h (by simp [hc, he])
    have habs : isAbsolute first = false := by simp [isAbsolute, hc, hslash]
    cases rest with
    | nil => simp [habs]
    | cons next rest =>
      rw [String.intercalate_cons_cons, String.append_assoc, isAbsolute_append hf, habs]
      simp [hf]

/-- A relative path begins with an empty segment only when it is empty. -/
lemma segments_of_not_isAbsolute {path : String} (h : isAbsolute path = false) (hne : path ≠ "") :
    (segments path).head? ≠ some "" := by
  have hl : path.toList ≠ [] := fun he => hne (String.toList_eq_nil_iff.1 he)
  obtain ⟨c, cs, hc⟩ := List.exists_cons_of_ne_nil hl
  have hslash : c ≠ '/' := fun he => by simp [isAbsolute, hc, he] at h
  have key : ∀ (cs part : List Char), part ≠ [] → (splitFrom part cs).head? ≠ some "" := by
    intro cs
    induction cs with
    | nil =>
      intro part hp he
      simp only [splitFrom, List.head?_cons, Option.some.injEq] at he
      exact hp (by simpa using congrArg String.toList he)
    | cons c cs ih =>
      intro part hp he
      by_cases hcs : c = '/'
      · subst hcs
        simp only [splitFrom, List.head?_cons, Option.some.injEq] at he
        exact hp (by simpa using congrArg String.toList he)
      · rw [splitFrom] at he
        · exact ih _ (by simp) he
        · exact hcs
  rw [segments, hc, splitFrom]
  · exact key _ _ (by simp)
  · exact hslash

/-! ## The parts that are left -/

/-- The segments of a path that are left when those at its end that say nothing are dropped. -/
def left (path : String) : List String := dropTrivialEnd (keptSegments path) (segments path)

/-- What is left in the same way without the last of them. -/
def leftAbove (path : String) : List String :=
  dropTrivialEnd (keptSegments path) (left path).dropLast

/-- What is left of a path are segments at its front. -/
lemma prefix_left (path : String) : left path <+: segments path := prefix_of_dropTrivialEnd ..

/-- So is what is left above it. -/
lemma prefix_leftAbove (path : String) : leftAbove path <+: segments path :=
  (prefix_of_dropTrivialEnd ..).trans ((List.dropLast_prefix _).trans (prefix_left path))

/-- They have no slashes. -/
lemma slash_notMem_leftAbove {path s : String} (hs : s ∈ leftAbove path) : '/' ∉ s.toList :=
  slash_notMem_of_mem_segments ((prefix_leftAbove path).subset hs)

/-- They have all of its names. -/
@[simp] lemma proper_left (path : String) : proper (left path) = names path :=
  proper_dropTrivialEnd ..

/-- Above more than one segment there are all names but the last. -/
lemma proper_leftAbove {path : String} (h : 1 < (left path).length) :
    proper (leftAbove path) = (names path).dropLast := by
  rw [leftAbove, proper_dropTrivialEnd]
  exact proper_dropLast_dropTrivialEnd ((keptSegments_le path).trans_lt h)

/-- Of an absolute path the root is left. -/
lemma left_of_isAbsolute {path : String} (h : isAbsolute path = true) :
    ∃ rest, left path = "" :: rest := by
  obtain ⟨rest, hrest⟩ := List.head?_eq_some_iff.1 (segments_of_isAbsolute h)
  refine ⟨rest.rdropWhile isTrivial, ?_⟩
  rw [left, dropTrivialEnd_eq, hrest, keptSegments, if_pos h]
  rfl

/-- The first segments of a path are as absolute as the path, if they are more than the root. -/
lemma isAbsolute_of_prefix {path : String} {parts : List String} (hne : path ≠ "")
    (hpre : parts <+: segments path) (hroot : isAbsolute path = true → 1 < parts.length) :
    isAbsolute ("/".intercalate parts) = isAbsolute path := by
  cases parts with
  | nil =>
    have habs : isAbsolute path = false := by
      by_contra h
      simpa using hroot (by simpa using h)
    simp [habs]
  | cons first rest =>
    obtain ⟨more, hmore⟩ := hpre
    have hhead : (segments path).head? = some first := by
      rw [← hmore]
      rfl
    have hmem : first ∈ segments path := List.mem_of_head? hhead
    rw [isAbsolute_intercalate (slash_notMem_of_mem_segments hmem)]
    cases habs : isAbsolute path with
    | true =>
      have hfirst : first = "" := by
        rw [segments_of_isAbsolute habs] at hhead
        exact (Option.some.inj hhead).symm
      have hrest : rest ≠ [] := by
        rintro rfl
        exact absurd (hroot habs) (by simp)
      simp [hfirst, hrest]
    | false =>
      have hfirst : first ≠ "" := by
        rintro rfl
        exact segments_of_not_isAbsolute habs hne hhead
      simp [hfirst]

/-! ## The parent -/

/-- `IsParent path above`: what is above a path is nothing for a single segment, the root for a name
below the root, and else what is left without the last segment. -/
inductive IsParent (path : String) : String → Prop where
  | nothing : isAbsolute path = false → (left path).length ≤ 1 → IsParent path ""
  | root : isAbsolute path = true → 1 < (left path).length → (leftAbove path).length ≤ 1 →
      IsParent path "/"
  | parts : path ≠ "" → 1 < (left path).length →
      (isAbsolute path = true → 1 < (leftAbove path).length) →
      IsParent path ("/".intercalate (leftAbove path))

/-- The parent that is found is one. -/
lemma isParent_of_parent? {path above : String} (h : parent? path = some above) :
    IsParent path above := by
  simp only [parent?, ← left.eq_def, ← leftAbove.eq_def] at h
  -- an absolute path keeps its root, and a relative one may lose all its parts
  cases habs : isAbsolute path with
  | true =>
    simp only [habs, ↓reduceIte] at h
    split at h
    · cases h
    next hlen =>
      cases h
      split
      next hroot => exact .root habs (by omega) hroot
      next hparts =>
        refine .parts ?_ (by omega) fun _ => by omega
        rintro rfl
        cases habs
  | false =>
    simp only [habs, Bool.false_eq_true, ↓reduceIte] at h
    split at h
    · cases h
    next hempty =>
      cases h
      split
      next hlen => exact .nothing habs hlen
      next hlen =>
        refine .parts ?_ (by omega) fun habs' => absurd habs' (by simp [habs])
        rintro rfl
        simp at hempty

/-- The parent of a path has its names but the last, and is absolute when the path is. -/
lemma names_parent {path above : String} (h : parent? path = some above) :
    names above = (names path).dropLast ∧ isAbsolute above = isAbsolute path := by
  cases isParent_of_parent? h with
  | nothing habs hlen =>
    have hnames : (names path).length ≤ 1 :=
      proper_left path ▸ (List.length_filter_le ..).trans hlen
    have hnone : (names path).dropLast = [] := by
      rw [← List.length_eq_zero_iff, List.length_dropLast]
      omega
    exact ⟨by rw [names_empty, hnone], by rw [isAbsolute_empty, habs]⟩
  | root habs hlen hroot =>
    obtain ⟨rest, hrest⟩ := List.head?_eq_some_iff.1 (segments_of_isAbsolute habs)
    have hnone : proper (leftAbove path) = [] := by
      have hpre := prefix_leftAbove path
      cases habove : leftAbove path with
      | nil => rfl
      | cons first more =>
        rw [habove] at hpre hroot
        rw [hrest, List.cons_prefix_cons] at hpre
        rw [hpre.1, List.length_eq_zero_iff.1 (Nat.le_zero.1 (Nat.le_of_succ_le_succ hroot))]
        rfl
    rw [← proper_leftAbove hlen, hnone, habs]
    exact ⟨by decide +kernel, rfl⟩
  | parts hne hlen hroot =>
    rw [names_intercalate fun s => slash_notMem_leftAbove, proper_leftAbove hlen]
    exact ⟨rfl, isAbsolute_of_prefix hne (prefix_leftAbove path) hroot⟩

/-- A path with a name has a parent. -/
lemma parent?_of_names {path : String} (hne : names path ≠ []) :
    ∃ above, parent? path = some above := by
  simp only [parent?, ← left.eq_def, ← leftAbove.eq_def]
  cases habs : isAbsolute path with
  | true =>
    obtain ⟨rest, hrest⟩ := left_of_isAbsolute habs
    have hlen : ¬ (left path).length ≤ 1 := by
      intro hlen
      rw [hrest, List.length_cons] at hlen
      rw [← proper_left, hrest, List.length_eq_zero_iff.1 (by omega : rest.length = 0)] at hne
      exact hne rfl
    rw [if_pos rfl, if_neg hlen]
    exact ⟨_, rfl⟩
  | false =>
    have hempty : (path.isEmpty || (left path).isEmpty) = false := by
      have hpath : path ≠ "" := by
        rintro rfl
        exact hne names_empty
      have hleft : left path ≠ [] := by
        intro hnil
        rw [← proper_left, hnil] at hne
        exact hne rfl
      simp [hpath, hleft]
    simp only [Bool.false_eq_true, ↓reduceIte, hempty]
    exact ⟨_, rfl⟩

/-- Of a path without names no more is left than is always kept. -/
lemma length_left_of_names_nil {path : String} (hnil : names path = []) :
    (left path).length ≤ 1 := by
  by_contra hlong
  have hkept := keptSegments_le path
  have hname : ∀ s ∈ left path, isTrivial s = true := by
    simpa [proper] using (proper_left path).trans hnil
  have hrest : ((segments path).drop (keptSegments path)).rdropWhile isTrivial ≠ [] := by
    intro he
    rw [left, dropTrivialEnd_eq, he, List.append_nil, List.length_take] at hlong
    omega
  refine List.rdropWhile_last_not isTrivial _ hrest (hname _ ?_)
  rw [left, dropTrivialEnd_eq]
  exact List.mem_append_right _ (List.getLast_mem hrest)

/-- The directory of a path without names is the current one. -/
lemma parentDirectory_of_names_nil {path : String} (hnil : names path = []) :
    parentDirectory path = "." := by
  have hlen := length_left_of_names_nil hnil
  cases hparent : parent? path with
  | none => simp [parentDirectory, hparent]
  | some above =>
    cases isParent_of_parent? hparent with
    | nothing => simp [parentDirectory, hparent]
    | root _ hlong => omega
    | parts _ hlong => omega

/-! ## Ends -/

/-- The last segment of a path; `above` are the names before it. -/
def EndsIn (path : String) (above : List String) (last : String) : Prop :=
  ∃ front, segments path = front ++ [last] ∧ proper front = above

/-- The names of a path that ends in a name are those above it and that name. -/
lemma EndsIn.names {path last : String} {above : List String} (h : EndsIn path above last)
    (hlast : ¬ (last = "" ∨ last = ".")) : names path = above ++ [last] := by
  obtain ⟨front, hsegments, rfl⟩ := h
  rw [Path.names, hsegments, proper_append, proper_cons _ hlast]
  rfl

/-- A path in a directory ends as it does alone. -/
lemma EndsIn.join {directory path last : String} {above : List String} (h : EndsIn path above last)
    (hp : isAbsolute path = false) :
    EndsIn (join directory path) (Path.names directory ++ above) last := by
  obtain ⟨behind, hsegments, rfl⟩ := h
  obtain ⟨front, hjoin, hfront⟩ := segments_join directory hp
  refine ⟨front ++ behind, ?_, ?_⟩
  · rw [hjoin, hsegments, List.append_assoc]
  · rw [proper_append, hfront]

/-- A path to which an ending without a slash is appended ends with a name that has it. -/
lemma exists_endsIn_append (directory text ending : String) (h : '/' ∉ ending.toList) :
    ∃ above last, EndsIn (Path.join directory (text ++ ending)) above (last ++ ending) := by
  obtain ⟨front, hfront⟩ := exists_join directory (text ++ ending)
  obtain ⟨before, last, hsplit⟩ := splitFrom_append [] (a := (front ++ text).toList) h
  refine ⟨_, last, before, ?_, rfl⟩
  rw [hfront, ← String.append_assoc, segments, String.toList_append, hsplit, String.ofList_toList]

/-- Putting segments together again gives back the path. -/
lemma intercalate_splitFrom (part cs : List Char) :
    "/".intercalate (splitFrom part cs) = String.ofList (part.reverse ++ cs) := by
  induction cs generalizing part with
  | nil => simp [splitFrom]
  | cons c cs ih =>
    by_cases hc : c = '/'
    · subst hc
      obtain ⟨first, rest, hrest⟩ := List.exists_cons_of_ne_nil (splitFrom_ne_nil [] cs)
      rw [splitFrom, hrest, String.intercalate_cons_cons, ← hrest, ih]
      rw [← String.toList_inj]
      simp [String.toList_append]
    · rw [splitFrom, ih]
      · simp
      · exact hc

/-- A path is its segments with slashes between them. -/
lemma intercalate_segments (path : String) : "/".intercalate (segments path) = path := by
  rw [segments, intercalate_splitFrom]
  simp

/-- A relative path with one name that ends with it is that name, unless it begins with a dot. -/
lemma eq_or_dot {path name : String} (hrel : isAbsolute path = false) (hnames : names path = [name])
    (hlast : (segments path).getLast? = some name) :
    path = name ∨ path.toList.head? = some '.' := by
  obtain ⟨front, hfront⟩ := List.getLast?_eq_some_iff.1 hlast
  have hmem : name ∈ names path := by simp [hnames]
  obtain ⟨_, hne, hdot⟩ := mem_proper.1 hmem
  rw [names, hfront, proper_append, proper_cons _ (fun h => h.elim hne hdot)] at hnames
  have htrivial : proper front = [] :=
    (List.append_inj' (hnames.trans (List.nil_append _).symm) rfl).1
  have hwhole := intercalate_segments path
  rw [hfront] at hwhole
  -- what is in front of the name is trivial, and a relative path cannot begin with a slash
  cases front with
  | nil =>
    rw [← hwhole]
    exact .inl (by simp)
  | cons first rest =>
    have hfirst : first = "" ∨ first = "." := by
      by_contra hproper
      rw [proper_cons _ hproper] at htrivial
      cases htrivial
    rcases hfirst with rfl | rfl
    · refine absurd ?_ (segments_of_not_isAbsolute hrel ?_)
      · rw [hfront]
        rfl
      · rintro rfl
        simp at hmem
    · obtain ⟨next, more, hmore⟩ : ∃ next more, rest ++ [name] = next :: more :=
        List.exists_cons_of_ne_nil (by simp)
      rw [List.cons_append, hmore, String.intercalate_cons_cons] at hwhole
      rw [← hwhole]
      exact .inr (by simp [String.toList_append])

/-- A path begins with the text of its first segments. -/
lemma append_of_prefix {parts : List String} {path : String} (h : parts <+: segments path) :
    ∃ rest, path = "/".intercalate parts ++ rest := by
  obtain ⟨more, hmore⟩ := h
  rw [← intercalate_segments path, ← hmore]
  by_cases hparts : parts = []
  · subst hparts
    exact ⟨"/".intercalate more, by simp⟩
  · by_cases hmore : more = []
    · subst hmore
      exact ⟨"", by simp⟩
    · rw [String.intercalate_append_of_ne_nil hparts hmore, String.append_assoc]
      exact ⟨_, rfl⟩

/-- A path begins with the text of its parent. -/
lemma parent?_append {path above : String} (h : parent? path = some above) :
    ∃ rest, path = above ++ rest := by
  cases isParent_of_parent? h with
  | nothing => exact ⟨path, by simp⟩
  | root habs =>
    obtain ⟨cs, hcs⟩ := List.head?_eq_some_iff.1 (beq_iff_eq.1 habs)
    refine ⟨String.ofList cs, ?_⟩
    rw [← String.toList_inj, hcs]
    simp [String.toList_append]
  | parts => exact append_of_prefix (prefix_leftAbove path)

/-- What is always kept of a path says nothing. -/
lemma isTrivial_of_mem_take {path s : String} (h : s ∈ (segments path).take (keptSegments path)) :
    isTrivial s = true := by
  obtain ⟨first, rest, hrest⟩ := List.exists_cons_of_ne_nil (segments_ne_nil path)
  rw [keptSegments] at h
  split at h
  next ha =>
    have hhead := segments_of_isAbsolute ha
    rw [hrest] at h hhead
    simp_all [isTrivial]
  next =>
    split at h
    next hdot =>
      rw [hrest] at h hdot
      simp_all [isTrivial]
    next => simp at h

/-- When something is named, the last segment that is left names something. -/
lemma getLast_dropTrivialEnd {path : String} {parts : List String} (hpre : parts <+: segments path)
    (hne : proper parts ≠ []) :
    ∃ front last, dropTrivialEnd (keptSegments path) parts = front ++ [last] ∧
      isTrivial last = false := by
  have hrest : (parts.drop (keptSegments path)).rdropWhile isTrivial ≠ [] := by
    intro he
    apply hne
    rw [← proper_dropTrivialEnd (keptSegments path), dropTrivialEnd_eq, he, List.append_nil, proper,
      List.filter_eq_nil_iff]
    intro s hs
    obtain ⟨more, hmore⟩ := hpre
    have hkept : s ∈ (segments path).take (keptSegments path) := by
      rw [← hmore, List.take_append]
      exact List.mem_append_left _ hs
    simp [isTrivial_of_mem_take hkept]
  have hlast := List.rdropWhile_last_not isTrivial _ hrest
  refine ⟨parts.take (keptSegments path) ++
    ((parts.drop (keptSegments path)).rdropWhile isTrivial).dropLast, _, ?_, by simpa using hlast⟩
  rw [dropTrivialEnd_eq, List.append_assoc, List.dropLast_concat_getLast hrest]

/-- A parent that names something ends with its last name. -/
lemma parent?_endsIn {path above : String} (h : parent? path = some above)
    (hne : names above ≠ []) :
    ∃ up last, EndsIn above up last ∧ ¬ (last = "" ∨ last = ".") := by
  cases isParent_of_parent? h with
  | nothing => exact absurd names_empty hne
  | root => exact absurd (by decide +kernel) hne
  | parts =>
    have hslash : ∀ s ∈ leftAbove path, '/' ∉ s.toList := fun s => slash_notMem_leftAbove
    rw [names_intercalate hslash, leftAbove, proper_dropTrivialEnd] at hne
    have hpre : (left path).dropLast <+: segments path :=
      (List.dropLast_prefix _).trans (prefix_left path)
    obtain ⟨front, last, hlast, htrivial⟩ := getLast_dropTrivialEnd hpre hne
    rw [← leftAbove] at hlast
    refine ⟨proper front, last, ⟨front, ?_, rfl⟩, by simpa [isTrivial] using htrivial⟩
    rw [segments_intercalate (by simp [hlast]) hslash, hlast]

/-! ## Lengths -/

/-- A text has no more characters than bytes. -/
lemma length_toList_le (text : String) : text.toList.length ≤ text.utf8ByteSize := by
  induction text using String.push_induction with
  | empty => simp
  | push text c ih =>
    have := Char.utf8Size_pos c
    rw [String.utf8ByteSize_push, String.toList_push, List.length_append, List.length_singleton]
    omega

/-- A path is no shorter than the parts that it is joined of. -/
lemma utf8ByteSize_le_join (directory : String) {path : String} (hp : isAbsolute path = false) :
    directory.utf8ByteSize + path.utf8ByteSize ≤ (join directory path).utf8ByteSize := by
  rcases join_cases directory hp with ⟨rfl, hjoin⟩ | ⟨front, rfl, hjoin⟩ | ⟨_, hjoin⟩
  all_goals
    rw [hjoin]
    simp [String.utf8ByteSize_append]

/-- A text has no more segments than characters, but for one. -/
lemma length_splitFrom_le (cs part : List Char) : (splitFrom part cs).length ≤ cs.length + 1 := by
  induction cs generalizing part with
  | nil => simp [splitFrom]
  | cons c cs ih =>
    by_cases hc : c = '/'
    · subst hc
      have := ih []
      simp only [splitFrom, List.length_cons]
      omega
    · have := ih (c :: part)
      rw [splitFrom, List.length_cons]
      · omega
      · exact hc

/-- So has a path. -/
lemma length_segments_le (path : String) : (segments path).length ≤ path.utf8ByteSize + 1 := by
  have := length_toList_le path
  have := length_splitFrom_le path.toList []
  rw [segments]
  omega

/-- It has no more names than characters. -/
lemma length_proper_splitFrom_le (cs part : List Char) :
    (proper (splitFrom part cs)).length ≤ part.length + cs.length := by
  have hone : (proper [String.ofList part.reverse]).length ≤ 1 := List.length_filter_le ..
  induction cs generalizing part with
  | nil =>
    by_cases hp : part = []
    · subst hp
      simp [splitFrom, proper, isTrivial]
    · have := List.length_pos_iff.2 hp
      simp only [splitFrom, List.length_nil]
      omega
  | cons c cs ih =>
    by_cases hc : c = '/'
    · subst hc
      have hrest := ih [] (List.length_filter_le ..)
      rw [splitFrom, ← List.singleton_append, proper_append, List.length_append]
      simp only [List.length_nil, List.length_cons] at hrest ⊢
      omega
    · have hrest := ih (c :: part) (List.length_filter_le ..)
      rw [splitFrom]
      · simp only [List.length_cons] at hrest ⊢
        omega
      · exact hc

/-- A path has no more names than bytes. -/
lemma length_names_le (path : String) : (names path).length ≤ path.utf8ByteSize := by
  have hle := length_proper_splitFrom_le path.toList []
  rw [List.length_nil, Nat.zero_add] at hle
  exact hle.trans (length_toList_le path)

end ConfigPack.Path
