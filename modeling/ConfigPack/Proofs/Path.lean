import ConfigPack.FileTree.Walk
import Mathlib.Tactic.Common

/-!
# Names on paths

What a path does depends on the names on it, in order, and on whether it is absolute; repeated
slashes and dots say nothing.  The names of a path that is taken in a directory are those of the
directory followed by its own (`names_join`).
-/

namespace ConfigPack.Path

/-- The segments that name something. -/
def proper (parts : List String) : List String := parts.filter fun s => !isTrivial s

/-- The names on a path. -/
def names (path : String) : List String := proper (segments path)

/-- A trivial segment is empty or a dot. -/
lemma isTrivial_iff {segment : String} :
    isTrivial segment = true ↔ segment = "" ∨ segment = "." := by
  simp [isTrivial]

@[simp] lemma proper_append (a b : List String) : proper (a ++ b) = proper a ++ proper b :=
  List.filter_append ..

/-- Trivial parts say nothing. -/
lemma proper_cons_trivial {part : String} (parts : List String) (h : part = "" ∨ part = ".") :
    proper (part :: parts) = proper parts := by
  simp [proper, isTrivial_iff.2 h]

/-- All others are kept. -/
lemma proper_cons {part : String} (parts : List String) (h : ¬ (part = "" ∨ part = ".")) :
    proper (part :: parts) = part :: proper parts := by
  simp [proper, mt isTrivial_iff.1 h]

/-- Parts that say something are those that are not trivial. -/
lemma mem_proper {name : String} {parts : List String} :
    name ∈ proper parts ↔ name ∈ parts ∧ name ≠ "" ∧ name ≠ "." := by
  simp [proper, isTrivial]

/-- Splitting behind a slash starts anew. -/
lemma splitFrom_slash (part : List Char) (a b : List Char) :
    splitFrom part (a ++ '/' :: b) = splitFrom part a ++ splitFrom [] b := by
  induction a generalizing part with
  | nil => simp [splitFrom]
  | cons c a ih =>
    by_cases hc : c = '/'
    · subst hc
      simp only [List.cons_append, splitFrom, ih]
    · rw [List.cons_append, splitFrom, splitFrom, ih]
      all_goals
        intro h
        exact hc h

/-- A text has at least one segment. -/
lemma splitFrom_ne_nil (part cs : List Char) : splitFrom part cs ≠ [] := by
  induction cs generalizing part with
  | nil => simp [splitFrom]
  | cons c cs ih =>
    by_cases hc : c = '/'
    · subst hc
      simp [splitFrom]
    · rw [splitFrom]
      · exact ih _
      · exact hc

/-- So has a path. -/
lemma segments_ne_nil (path : String) : segments path ≠ [] := splitFrom_ne_nil _ _

@[simp] lemma segments_empty : segments "" = [""] := by
  simp [segments, splitFrom]

/-- A slash divides a path. -/
lemma segments_slash (a b : String) : segments (a ++ "/" ++ b) = segments a ++ segments b := by
  have h : (a ++ "/" ++ b).toList = a.toList ++ '/' :: b.toList := by
    simp [String.toList_append]
  rw [segments, h, splitFrom_slash]
  rfl

@[simp] lemma names_empty : names "" = [] := by
  simp [names, proper, isTrivial]

/-- The names of a divided path are those of its parts. -/
lemma names_slash (a b : String) : names (a ++ "/" ++ b) = names a ++ names b := by
  rw [names, segments_slash, proper_append]
  rfl

/-- A text that ends with a slash is another text with a slash behind it. -/
lemma eq_append_slash {text : String} (h : text.toList.getLast? = some '/') :
    ∃ front, text = front ++ "/" := by
  obtain ⟨l, hl⟩ := List.getLast?_eq_some_iff.1 h
  refine ⟨String.ofList l, ?_⟩
  rw [← String.toList_inj, String.toList_append, String.toList_ofList, hl]
  rfl

/-- The three texts that a relative path can become in a directory. -/
lemma join_cases (directory : String) {path : String} (hp : isAbsolute path = false) :
    (directory = "" ∧ join directory path = path) ∨
      (∃ front, directory = front ++ "/" ∧ join directory path = front ++ "/" ++ path) ∨
      (directory ≠ "" ∧ join directory path = directory ++ "/" ++ path) := by
  simp only [join, hp, Bool.false_eq_true, ↓reduceIte]
  split
  next h =>
    rcases Bool.or_eq_true_iff.1 h with he | hs
    · have := String.isEmpty_iff.1 he
      subst this
      exact .inl ⟨rfl, by simp⟩
    · obtain ⟨front, hf⟩ := eq_append_slash (beq_iff_eq.1 hs)
      subst hf
      exact .inr (.inl ⟨front, rfl, rfl⟩)
  next h =>
    refine .inr (.inr ⟨?_, rfl⟩)
    intro he
    subst he
    simp at h

/-- A path in a directory ends with the path. -/
lemma exists_join (directory path : String) : ∃ front, join directory path = front ++ path := by
  rw [join]
  split
  · exact ⟨"", String.empty_append.symm⟩
  · split
    · exact ⟨directory, rfl⟩
    · exact ⟨directory ++ "/", rfl⟩

/-- The segments of a path in a directory end with those of the path. -/
lemma segments_join (directory : String) {path : String} (hp : isAbsolute path = false) :
    ∃ front, segments (join directory path) = front ++ segments path ∧
      proper front = names directory := by
  rcases join_cases directory hp with ⟨hd, hj⟩ | ⟨front, hd, hj⟩ | ⟨_, hj⟩
  · rw [hj, hd]
    exact ⟨[], rfl, by simp [proper]⟩
  · rw [hj, hd, segments_slash]
    refine ⟨segments front, rfl, ?_⟩
    have h := names_slash front ""
    rw [names_empty, List.append_nil, String.append_empty] at h
    exact h.symm
  · rw [hj, segments_slash]
    exact ⟨_, rfl, rfl⟩

/-- The names of a path in a directory. -/
lemma names_join {directory path : String} (hp : isAbsolute path = false) :
    names (join directory path) = names directory ++ names path := by
  obtain ⟨front, hs, hf⟩ := segments_join directory hp
  rw [names, hs, proper_append, hf]
  rfl

/-- Whether a path is absolute is told by its front. -/
lemma isAbsolute_append {a b : String} (ha : a ≠ "") : isAbsolute (a ++ b) = isAbsolute a := by
  have : a.toList ≠ [] := fun h => ha (String.toList_eq_nil_iff.1 h)
  obtain ⟨c, cs, hc⟩ := List.exists_cons_of_ne_nil this
  simp [isAbsolute, String.toList_append, hc]

@[simp] lemma isAbsolute_empty : isAbsolute "" = false := by
  simp [isAbsolute]

/-- A path in a directory is absolute when the directory is. -/
lemma isAbsolute_join {directory path : String} (hp : isAbsolute path = false) :
    isAbsolute (join directory path) = isAbsolute directory := by
  rcases join_cases directory hp with ⟨hd, hj⟩ | ⟨front, hd, hj⟩ | ⟨hd, hj⟩
  · rw [hj, hd, hp, isAbsolute_empty]
  · rw [hj, hd]
    refine isAbsolute_append fun h => ?_
    have := congrArg String.toList h
    simp [String.toList_append] at this
  · rw [hj, String.append_assoc]
    exact isAbsolute_append hd

/-- A text has a zero character when one of its two parts has. -/
lemma hasNul_append (text more : String) : hasNul (text ++ more) = (hasNul text || hasNul more) := by
  rw [hasNul, String.toList_append, List.contains_append]
  rfl

/-- A path in a directory has a zero character when the path or the directory has. -/
lemma hasNul_join {directory path : String} (hrel : isAbsolute path = false) :
    hasNul (join directory path) = (hasNul directory || hasNul path) := by
  have hslash : hasNul "/" = false := by decide
  rcases join_cases directory hrel with ⟨hd, e⟩ | ⟨front, hfront, e⟩ | ⟨_, e⟩
  · rw [e, hd]
    rfl
  · rw [e, hfront, hasNul_append]
  · rw [e, hasNul_append, hasNul_append, hslash, Bool.or_false]

/-- A path stays inside a directory when it is relative and never leads upwards. -/
lemma staysInside_iff {path : String} :
    staysInside path = true ↔ isAbsolute path = false ∧ ".." ∉ names path := by
  have hbody : ∀ l : List String,
      ((l.map Component.ofSegment).all Component.staysInside = true ↔ ".." ∉ l) := by
    intro l
    rw [List.all_map, List.all_eq_true]
    constructor
    · intro h hmem
      have := h ".." hmem
      simp [Component.ofSegment, Component.staysInside] at this
    · intro h name hname
      have hne : name ≠ ".." := fun he => h (he ▸ hname)
      simp [Component.ofSegment, hne, Component.staysInside]
  simp only [staysInside, components]
  cases ha : isAbsolute path with
  | true => simp [Component.staysInside]
  | false =>
    simp only [Bool.false_eq_true, ↓reduceIte, true_and]
    rw [← hbody]
    split
    · simp only [List.all_cons, Component.staysInside, Bool.true_and, names, proper]
    · rfl

/-- The names on a walk are those of its steps that say something. -/
lemma proper_steps (path : String) : proper (FileTree.steps path) = names path := by
  have h : proper ((segments path).filter (· ≠ "")) = names path := by
    rw [names, proper, proper, List.filter_filter]
    congr 1
    funext s
    by_cases hs : s = "" <;> simp [isTrivial, hs]
  simp only [FileTree.steps]
  split
  · rw [proper_append, h, proper_cons_trivial [] (.inl rfl)]
    simp [proper]
  · exact h

/-- A text without slashes is one segment. -/
lemma splitFrom_eq_singleton (part : List Char) {cs : List Char} (h : '/' ∉ cs) :
    splitFrom part cs = [String.ofList (part.reverse ++ cs)] := by
  induction cs generalizing part with
  | nil => simp [splitFrom]
  | cons c cs ih =>
    rw [splitFrom, ih]
    · simp
    · exact fun hm => h (List.mem_cons_of_mem _ hm)
    · intro hc
      exact h (hc ▸ List.mem_cons_self)

/-- What is appended without a slash ends the last segment. -/
lemma splitFrom_append (part : List Char) {a b : List Char} (h : '/' ∉ b) :
    ∃ front last, splitFrom part (a ++ b) = front ++ [last ++ String.ofList b] := by
  induction a generalizing part with
  | nil =>
    refine ⟨[], String.ofList part.reverse, ?_⟩
    rw [List.nil_append, splitFrom_eq_singleton part h, String.ofList_append]
    rfl
  | cons c a ih =>
    by_cases hc : c = '/'
    · subst hc
      obtain ⟨front, last, hsplit⟩ := ih []
      exact ⟨String.ofList part.reverse :: front, last, by
        rw [List.cons_append, splitFrom, hsplit, List.cons_append]⟩
    · obtain ⟨front, last, hsplit⟩ := ih (c :: part)
      refine ⟨front, last, ?_⟩
      rw [List.cons_append, splitFrom, hsplit]
      exact hc

/-- A text without slashes is its only segment. -/
lemma segments_eq_singleton {text : String} (h : '/' ∉ text.toList) : segments text = [text] := by
  rw [segments, splitFrom_eq_singleton [] h]
  simp

/-- Segments hold no slash. -/
lemma slash_notMem_of_mem_splitFrom {part cs : List Char} (hp : '/' ∉ part) {s : String}
    (hs : s ∈ splitFrom part cs) : '/' ∉ s.toList := by
  induction cs generalizing part with
  | nil =>
    simp only [splitFrom, List.mem_singleton] at hs
    subst hs
    simpa using hp
  | cons c cs ih =>
    by_cases hc : c = '/'
    · subst hc
      rcases List.mem_cons.1 hs with rfl | hs
      · simpa using hp
      · exact ih (by simp) hs
    · rw [splitFrom] at hs
      · refine ih (fun hm => ?_) hs
        rcases List.mem_cons.1 hm with hm | hm
        · exact hc hm.symm
        · exact hp hm
      · exact hc

/-- No segment has a slash. -/
lemma slash_notMem_of_mem_segments {path s : String} (h : s ∈ segments path) : '/' ∉ s.toList :=
  slash_notMem_of_mem_splitFrom (by simp) h

/-- The segments of texts that are put together with slashes are those texts. -/
lemma segments_intercalate {parts : List String} (hne : parts ≠ [])
    (h : ∀ s ∈ parts, '/' ∉ s.toList) : segments ("/".intercalate parts) = parts := by
  induction parts with
  | nil => exact absurd rfl hne
  | cons first rest ih =>
    have hfirst := h first List.mem_cons_self
    cases rest with
    | nil => rw [String.intercalate_singleton, segments_eq_singleton hfirst]
    | cons next rest =>
      rw [String.intercalate_cons_cons, segments_slash, segments_eq_singleton hfirst,
        ih (by simp) fun s hs => h s (List.mem_cons_of_mem _ hs)]
      rfl

/-- Texts with slashes between them have a zero character when one of them has. -/
lemma hasNul_intercalate (parts : List String) :
    hasNul ("/".intercalate parts) = parts.any hasNul := by
  have hslash : hasNul "/" = false := by decide
  induction parts with
  | nil => rfl
  | cons first rest ih =>
    cases rest with
    | nil => simp
    | cons next rest =>
      rw [String.intercalate_cons_cons, hasNul_append, hasNul_append, hslash, ih, Bool.or_false]
      rfl

/-- The names of joined parts are the parts that say something. -/
lemma names_intercalate {parts : List String} (h : ∀ s ∈ parts, '/' ∉ s.toList) :
    names ("/".intercalate parts) = proper parts := by
  by_cases hne : parts = []
  · subst hne
    simp [proper]
  · rw [names, segments_intercalate hne h]

/-- The last component of a path is its last name. -/
lemma fileName?_of_names {path name : String} {above : List String}
    (h : names path = above ++ [name]) (hup : name ≠ "..") : fileName? path = some name := by
  have hbody : ∀ front : List Component,
      (front ++ (names path).map Component.ofSegment).getLast? = some (.name name) := by
    intro front
    rw [h, List.map_append, ← List.append_assoc]
    simp [Component.ofSegment, hup]
  have hlast : (components path).getLast? = some (.name name) := by
    simp only [components]
    split
    · exact hbody [.root]
    · split
      · exact hbody [.current]
      · exact hbody []
  rw [fileName?, hlast]

/-- Paths with one last name have one extension. -/
lemma lowerExtension_eq {path path' name : String} {above above' : List String}
    (h : names path = above ++ [name]) (h' : names path' = above' ++ [name]) (hup : name ≠ "..") :
    lowerExtension path = lowerExtension path' := by
  rw [lowerExtension, lowerExtension, extension?, extension?, fileName?_of_names h hup,
    fileName?_of_names h' hup]

end ConfigPack.Path
