import ConfigPack.Proofs.Text.Replace

/-!
# Markers in texts

A marker is a name without braces between two pairs of braces.  A text in which two braces only open
markers is read as a list of markers and other characters (`exists_reads`), and replacing one marker
by such a text replaces it in the list (`Reads.replace`): no marker is made or broken where the
value meets the text around it, as the value does not end in a brace.
-/

namespace ConfigPack.Substitution

/-- A name that markers can have: no brace is in it. -/
structure Name where
  chars : List Char
  no_open : '\x7b' ∉ chars
  no_close : '\x7d' ∉ chars
deriving DecidableEq

namespace Name

/-- The characters behind the two braces that open a marker. -/
def tail (name : Name) : List Char := name.chars ++ ['\x7d', '\x7d']

/-- The characters of the marker of a name. -/
def marker (name : Name) : List Char := '\x7b' :: '\x7b' :: name.tail

/-- The marker of a name. -/
def token (name : Name) : String := String.ofList name.marker

variable {name other : Name} {rest : List Char}

@[simp] lemma toList_token (name : Name) : name.token.toList = name.marker :=
  String.toList_ofList

/-- A marker has characters. -/
lemma marker_ne_nil (name : Name) : name.marker ≠ [] := List.cons_ne_nil _ _

/-- So has the token that it writes. -/
lemma token_ne_empty (name : Name) : name.token ≠ "" := by
  rw [Ne, ← String.toList_eq_nil_iff, toList_token]
  exact name.marker_ne_nil

/-- Behind the first two braces none is opened. -/
lemma open_notMem_tail (name : Name) : '\x7b' ∉ name.tail := by
  rw [tail, List.mem_append, not_or]
  exact ⟨name.no_open, by decide⟩

/-- Names with the same characters are the same. -/
lemma ext_chars (h : name.chars = other.chars) : name = other := by
  cases name
  cases other
  cases h
  rfl

/-- Names before closing braces are the same when one text continues the other. -/
lemma eq_of_prefix_close {xs ys : List Char} (hxs : '\x7d' ∉ xs) (hys : '\x7d' ∉ ys)
    {front back : List Char} (h : xs ++ '\x7d' :: front <+: ys ++ '\x7d' :: back) : xs = ys := by
  induction xs generalizing ys with
  | nil =>
    cases ys with
    | nil => rfl
    | cons y ys =>
      rw [(List.cons_prefix_cons.1 h).1] at hys
      exact absurd List.mem_cons_self hys
  | cons x xs ih =>
    cases ys with
    | nil =>
      rw [(List.cons_prefix_cons.1 h).1] at hxs
      exact absurd List.mem_cons_self hxs
    | cons y ys =>
      obtain ⟨hsame, hrest⟩ := List.cons_prefix_cons.1 h
      rw [List.mem_cons, not_or] at hxs hys
      rw [hsame, ih hxs.2 hys.2 hrest]

/-- A text begins with one marker at most. -/
lemma eq_of_prefix (h : name.marker <+: other.marker ++ rest) : name = other := by
  rw [marker, marker, List.cons_append, List.cons_append, List.cons_prefix_cons,
    List.cons_prefix_cons, tail, tail, List.append_assoc] at h
  exact ext_chars (eq_of_prefix_close name.no_close other.no_close h.2.2)

/-- Different names have different tokens. -/
lemma token_inj (h : name.token = other.token) : name = other := by
  have hsame : name.marker = other.marker := by rw [← toList_token, h, toList_token]
  have hprefix : name.marker <+: other.marker ++ [] := by rw [List.append_nil, hsame]
  exact eq_of_prefix hprefix

/-- No marker begins at a brace that stands alone. -/
lemma not_prefix_of_head (h : rest.head? ≠ some '\x7b') (c : Char) :
    ¬ name.marker <+: c :: rest := by
  intro hprefix
  obtain ⟨back, hback⟩ := (List.cons_prefix_cons.1 hprefix).2
  rw [← hback] at h
  exact h rfl

/-- No marker begins at the second brace of a marker. -/
lemma head?_tail (name : Name) (rest : List Char) :
    (name.tail ++ rest).head? ≠ some '\x7b' := by
  intro h
  have hmem : '\x7b' ∈ name.tail := by
    cases htail : name.tail with
    | nil => exact absurd htail (by simp [tail])
    | cons c cs =>
      rw [htail] at h
      cases h
      exact List.mem_cons_self
  exact name.open_notMem_tail hmem

/-- A marker that begins inside another one begins where it does. -/
lemma eq_nil_of_inside {front back : List Char}
    (hsame : name.marker ++ rest = front ++ (other.marker ++ back))
    (hshort : front.length < name.marker.length) : front = [] := by
  match front with
  | [] => rfl
  | [c] =>
    -- the second brace of the other marker would be the first character of the tail
    have htail : name.tail ++ rest = '\x7b' :: (other.tail ++ back) :=
      (List.cons.inj (List.cons.inj hsame).2).2
    exact absurd (congrArg List.head? htail) (name.head?_tail rest)
  | c :: d :: front =>
    have htail : name.tail ++ rest = front ++ (other.marker ++ back) :=
      (List.cons.inj (List.cons.inj hsame).2).2
    have hlength : front.length < name.tail.length :=
      Nat.lt_of_succ_lt_succ (Nat.lt_of_succ_lt_succ hshort)
    -- its first brace would be a character of the tail
    have hopen : (name.tail ++ rest)[front.length]? = some '\x7b' := by
      rw [htail, List.getElem?_append_right (Nat.le_refl _), Nat.sub_self]
      rfl
    rw [List.getElem?_append_left hlength] at hopen
    exact absurd (List.mem_of_getElem? hopen) name.open_notMem_tail

/-- Where markers of two names overlap, they begin at one place and so are the same. -/
lemma eq_of_overlap {x y x' y' : List Char} (hsame : x ++ name.marker ++ y = x' ++ other.marker ++ y')
    (hle : x.length ≤ x'.length) (hshort : x'.length < x.length + name.marker.length) :
    name = other := by
  rw [List.append_assoc, List.append_assoc] at hsame
  have hfront : x <+: x' := by
    apply List.prefix_of_prefix_length_le (List.prefix_append x (name.marker ++ y)) _ hle
    rw [hsame]
    exact List.prefix_append x' _
  obtain ⟨z, rfl⟩ := hfront
  rw [List.append_assoc] at hsame
  have hinside := List.append_cancel_left hsame
  rw [List.length_append] at hshort
  obtain rfl : z = [] := eq_nil_of_inside hinside (Nat.lt_of_add_lt_add_left hshort)
  exact eq_of_prefix ⟨y, hinside⟩

/-- Markers of two names do not overlap. -/
lemma apart (h : name ≠ other) : Text.Apart name.marker other.marker := by
  intro x y x' y' hsame
  by_contra hoverlap
  rw [not_or, Nat.not_le, Nat.not_le] at hoverlap
  rcases Nat.le_total x.length x'.length with hle | hle
  · exact h (eq_of_overlap hsame hle hoverlap.1)
  · exact h (eq_of_overlap hsame.symm hle hoverlap.2).symm

end Name

/-! ## Texts of markers and other characters -/

/-- A character or a marker. -/
inductive Piece where
  | char (c : Char)
  | marker (name : Name)
deriving DecidableEq

/-- The characters of a piece. -/
def Piece.chars : Piece → List Char
  | char c => [c]
  | marker name => name.marker

/-- The characters of pieces. -/
def write (pieces : List Piece) : List Char := pieces.flatMap Piece.chars

/-- Outside of markers no brace is in front of a brace. -/
def Proper : List Piece → Prop
  | [] => True
  | .char c :: rest => (c = '\x7b' → (write rest).head? ≠ some '\x7b') ∧ Proper rest
  | .marker _ :: rest => Proper rest

/-- Wherever two braces stand in a text, a marker begins. -/
def OpensMarkers (text : List Char) : Prop :=
  ∀ before after, text = before ++ '\x7b' :: '\x7b' :: after →
    ∃ name : Name, name.marker <+: '\x7b' :: '\x7b' :: after

variable {pieces value xs ys : List Piece} {name : Name}

@[simp] lemma write_nil : write [] = [] := rfl

@[simp] lemma write_char (c : Char) (rest : List Piece) :
    write (.char c :: rest) = c :: write rest := rfl

@[simp] lemma write_marker (name : Name) (rest : List Piece) :
    write (.marker name :: rest) = name.marker ++ write rest := rfl

@[simp] lemma write_append (xs ys : List Piece) : write (xs ++ ys) = write xs ++ write ys :=
  List.flatMap_append

/-- The end of a text whose braces open markers is such a text. -/
lemma OpensMarkers.of_append (front : List Char) {back : List Char}
    (h : OpensMarkers (front ++ back)) : OpensMarkers back := by
  intro before after hback
  exact h (front ++ before) after (by rw [hback, List.append_assoc])

/-- A text in which two braces only open markers is read as markers and other characters. -/
lemma exists_pieces {text : List Char} (h : OpensMarkers text) :
    ∃ pieces, text = write pieces ∧ Proper pieces := by
  -- by the length of the text, as a marker is read at once
  induction hlength : text.length using Nat.strong_induction_on generalizing text with
  | _ length ih =>
    cases text with
    | nil => exact ⟨[], rfl, trivial⟩
    | cons c rest =>
      by_cases hopens : ∃ name : Name, name.marker <+: c :: rest
      · obtain ⟨name, back, hback⟩ := hopens
        have hshort : back.length < length := by
          rw [← hlength, ← hback, List.length_append]
          have hpos := List.length_pos_of_ne_nil name.marker_ne_nil
          omega
        obtain ⟨pieces, hpieces, hproper⟩ := ih _ hshort (.of_append name.marker (hback ▸ h)) rfl
        exact ⟨.marker name :: pieces, by rw [write_marker, ← hpieces, hback], hproper⟩
      · have hshort : rest.length < length := by
          rw [← hlength]
          exact Nat.lt_succ_self rest.length
        have hrest : OpensMarkers rest := h.of_append [c]
        obtain ⟨pieces, hpieces, hproper⟩ := ih _ hshort hrest rfl
        refine ⟨.char c :: pieces, by rw [write_char, ← hpieces], ?_, hproper⟩
        rintro rfl hhead
        rw [← hpieces, List.head?_eq_some_iff] at hhead
        obtain ⟨after, rfl⟩ := hhead
        exact hopens (h [] after rfl)

/-- A character is put in front of a text: two braces that come together open a marker. -/
lemma OpensMarkers.cons {c : Char} {rest : List Char} (h : OpensMarkers rest)
    (hc : c = '\x7b' → rest.head? = some '\x7b' → ∃ name : Name, name.marker <+: c :: rest) :
    OpensMarkers (c :: rest) := by
  intro before after htext
  cases before with
  | nil =>
    obtain ⟨rfl, rfl⟩ := List.cons.inj htext
    exact hc rfl rfl
  | cons b before => exact h before after (List.cons.inj htext).2

/-- Text without braces may stand in front. -/
lemma OpensMarkers.copy {front rest : List Char} (h : OpensMarkers rest)
    (hfront : '\x7b' ∉ front) : OpensMarkers (front ++ rest) := by
  induction front with
  | nil => exact h
  | cons c front ih =>
    rw [List.mem_cons, not_or] at hfront
    exact (ih hfront.2).cons fun hopen => absurd hopen.symm hfront.1

/-- In the characters of pieces two braces only open markers. -/
lemma Proper.opensMarkers (h : Proper pieces) : OpensMarkers (write pieces) := by
  induction pieces with
  | nil =>
    intro before after htext
    cases before <;> cases htext
  | cons piece rest ih =>
    cases piece with
    | char c => exact (ih h.2).cons fun hopen hhead => absurd hhead (h.1 hopen)
    | marker name =>
      have htail : OpensMarkers ('\x7b' :: (name.tail ++ write rest)) :=
        ((ih h).copy name.open_notMem_tail).cons fun _ hhead =>
          absurd hhead (name.head?_tail _)
      exact htail.cons fun _ _ => ⟨name, List.prefix_append name.marker (write rest)⟩

/-- The last character of a text is no brace that opens. -/
def EndsClosed (text : List Char) : Prop := text.getLast? ≠ some '\x7b'

instance : DecidablePred EndsClosed := fun _ => inferInstanceAs (Decidable (_ ≠ _))

/-- What ends with a closed brace does so without its front. -/
lemma EndsClosed.of_append (front : List Char) {back : List Char}
    (h : EndsClosed (front ++ back)) : EndsClosed back := by
  intro hlast
  apply h
  rw [List.getLast?_append, hlast]
  rfl

/-- No marker begins at a character that is no part of one. -/
lemma Proper.not_prefix {c : Char} (h : Proper (.char c :: pieces)) (name : Name) :
    ¬ name.marker <+: c :: write pieces := by
  intro hprefix
  have hopen := (List.cons_prefix_cons.1 hprefix).1
  exact Name.not_prefix_of_head (h.1 hopen.symm) c hprefix

/-- Texts are joined where the first one does not end in a brace. -/
lemma Proper.append (hxs : Proper xs) (hys : Proper ys) (hends : EndsClosed (write xs)) :
    Proper (xs ++ ys) := by
  induction xs with
  | nil => exact hys
  | cons piece xs ih =>
    cases piece with
    | char c =>
      have hrest : EndsClosed (write xs) := hends.of_append [c]
      rw [List.cons_append]
      refine ⟨fun hopen => ?_, ih hxs.2 hrest⟩
      rw [write_append, List.head?_append]
      cases hhead : (write xs).head? with
      | none =>
        -- then the brace is the last character
        rw [write_char, List.head?_eq_none_iff.1 hhead, hopen] at hends
        exact absurd rfl hends
      | some d =>
        rw [Option.some_or, ← hhead]
        exact hxs.1 hopen
    | marker name => exact ih hxs (hends.of_append name.marker)

/-! ## Replacing a marker -/

/-- What stands for a piece when a marker is replaced. -/
def fill (name : Name) (value : List Piece) : Piece → List Piece
  | .char c => [.char c]
  | .marker other => if other = name then value else [.marker other]

/-- Pieces with a marker replaced. -/
def filled (name : Name) (value pieces : List Piece) : List Piece :=
  pieces.flatMap (fill name value)

/-- A character stays. -/
lemma filled_char (c : Char) (rest : List Piece) :
    filled name value (.char c :: rest) = .char c :: filled name value rest := rfl

/-- A marker of the name gives way to the value. -/
lemma filled_same (rest : List Piece) :
    filled name value (.marker name :: rest) = value ++ filled name value rest := by
  rw [filled, List.flatMap_cons, fill, if_pos rfl, filled]

/-- A marker of another name stays. -/
lemma filled_other {other : Name} (h : other ≠ name) (rest : List Piece) :
    filled name value (.marker other :: rest) = .marker other :: filled name value rest := by
  rw [filled, List.flatMap_cons, fill, if_neg h, filled]
  rfl

/-- A marker in a filled text comes from the value or was there before. -/
lemma marker_mem_filled {other : Name} (h : .marker other ∈ filled name value pieces) :
    .marker name ∈ pieces ∧ .marker other ∈ value ∨ .marker other ∈ pieces ∧ other ≠ name := by
  obtain ⟨piece, hpiece, h⟩ := List.mem_flatMap.1 h
  cases piece with
  | char c => cases List.mem_singleton.1 h
  | marker n =>
    rw [fill] at h
    split at h
    next hsame => exact .inl ⟨hsame ▸ hpiece, h⟩
    next hne =>
      cases List.mem_singleton.1 h
      exact .inr ⟨hpiece, hne⟩

/-- Where a marker is replaced, still no brace is in front of a brace. -/
lemma Proper.filled (hpieces : Proper pieces) (hvalue : Proper value)
    (hends : EndsClosed (write value)) : Proper (filled name value pieces) := by
  induction pieces with
  | nil => exact trivial
  | cons piece rest ih =>
    cases piece with
    | char c =>
      rw [filled_char]
      refine ⟨fun hopen => ?_, ih hpieces.2⟩
      have hhead := hpieces.1 hopen
      -- the character behind it is no part of a marker, so it stays
      cases rest with
      | nil => exact fun h => nomatch h
      | cons next rest =>
        cases next with
        | char d => exact hhead
        | marker other => exact absurd rfl hhead
    | marker other =>
      by_cases hname : other = name
      · rw [hname, filled_same]
        exact hvalue.append (ih hpieces) hends
      · rw [filled_other hname]
        exact ih hpieces

/-- A text is read as pieces. -/
structure Reads (text : String) (pieces : List Piece) : Prop where
  text_eq : text.toList = write pieces
  proper : Proper pieces

/-- A text whose braces open markers can be read as pieces. -/
lemma exists_reads {text : String} (h : OpensMarkers text.toList) : ∃ pieces, Reads text pieces := by
  obtain ⟨pieces, htext, hproper⟩ := exists_pieces h
  exact ⟨pieces, htext, hproper⟩

/-- Replacing a marker in the characters of pieces replaces it in the pieces. -/
lemma write_replaced (hpieces : Proper pieces) (name : Name) (value : List Piece) :
    Text.Replaced name.marker (write value) (write pieces) (write (filled name value pieces)) := by
  induction pieces with
  | nil => exact .nil
  | cons piece rest ih =>
    cases piece with
    | char c => exact .other (hpieces.not_prefix name) (ih hpieces.2)
    | marker other =>
      by_cases hname : other = name
      · rw [hname, filled_same, write_append]
        exact .found (ih hpieces)
      · rw [filled_other hname]
        -- the two braces are kept one by one, and then no more of them come
        apply Text.Replaced.other fun h => hname (Name.eq_of_prefix h).symm
        apply Text.Replaced.other (Name.not_prefix_of_head (other.head?_tail _) _)
        exact (ih hpieces).keep other.open_notMem_tail

/-- Replacing a marker by a text that does not end in a brace replaces it in what is read. -/
lemma Reads.replace {text with_ : String} (h : Reads text pieces) (hvalue : Reads with_ value)
    (hends : EndsClosed with_.toList) (name : Name) :
    Reads (Text.replace text name.token with_) (filled name value pieces) := by
  rw [hvalue.text_eq] at hends
  refine ⟨?_, h.proper.filled hvalue.proper hends⟩
  have hreplaced := @Text.replace_replaced text name.token with_ name.token_ne_empty
  rw [Name.toList_token, hvalue.text_eq, h.text_eq] at hreplaced
  exact hreplaced.unique name.marker_ne_nil (write_replaced h.proper name value)

end ConfigPack.Substitution
