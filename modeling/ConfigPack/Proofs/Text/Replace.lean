import ConfigPack.Text.Replace
import Mathlib.Data.List.Infix

/-!
# Replaced occurrences

`Replaced` tells what a replacement makes of a text: from left to right it writes the value for each
occurrence of the pattern and keeps the other characters.  The value then occurs where the pattern
did (`Replaced.value_occurs`), a text that stays as it was had the value for its pattern
(`Replaced.value_eq`), and what never overlaps the pattern is kept (`Replaced.keeps`).
`PartlyReplaced` tells the same of some of the occurrences: how many they are is seen from the
length, so a text stays as it was only if there are none or the value is the pattern
(`PartlyReplaced.eq_iff`).
-/

namespace ConfigPack.Text

/-- A text after the value has been written for each occurrence of the pattern in it. -/
inductive Replaced (pattern value : List Char) : List Char → List Char → Prop
  | nil : Replaced pattern value [] []
  | found {rest out : List Char} : Replaced pattern value rest out →
    Replaced pattern value (pattern ++ rest) (value ++ out)
  | other {c : Char} {rest out : List Char} : ¬ pattern <+: c :: rest →
    Replaced pattern value rest out → Replaced pattern value (c :: rest) (c :: out)

/-- A text after the value has been written for so many of the occurrences of the pattern in it. -/
inductive PartlyReplaced (pattern value : List Char) : Nat → List Char → List Char → Prop
  | nil : PartlyReplaced pattern value 0 [] []
  | found {count : Nat} {rest out : List Char} : PartlyReplaced pattern value count rest out →
    PartlyReplaced pattern value (count + 1) (pattern ++ rest) (value ++ out)
  | other {count : Nat} {c : Char} {rest out : List Char} :
    PartlyReplaced pattern value count rest out →
    PartlyReplaced pattern value count (c :: rest) (c :: out)

/-- Wherever two texts both occur, they do not overlap. -/
def Apart (a b : List Char) : Prop :=
  ∀ x y x' y', x ++ a ++ y = x' ++ b ++ y' →
    x.length + a.length ≤ x'.length ∨ x'.length + b.length ≤ x.length

/-! ## Steps of a replacement -/

section

variable {pattern : List Char} {value : String}

/-- The characters of an occurrence that was written are passed over. -/
lemma replaceFrom_skip (xs rest : List Char) (out : String) :
    replaceFrom pattern value xs.length (xs ++ rest) out = replaceFrom pattern value 0 rest out := by
  induction xs with
  | nil => rfl
  | cons c xs ih => exact ih

/-- Where the pattern begins, the value is written. -/
lemma replaceFrom_found (hpattern : pattern ≠ []) (rest : List Char) (out : String) :
    replaceFrom pattern value 0 (pattern ++ rest) out =
      replaceFrom pattern value 0 rest (out ++ value) := by
  cases pattern with
  | nil => exact absurd rfl hpattern
  | cons c cs =>
    have hprefix : (c :: cs).isPrefixOf (c :: (cs ++ rest)) = true :=
      List.isPrefixOf_iff_prefix.2 (List.prefix_append (c :: cs) rest)
    rw [List.cons_append, replaceFrom, if_pos hprefix]
    exact replaceFrom_skip cs rest (out ++ value)

/-- Where the pattern does not begin, a character is copied. -/
lemma replaceFrom_other {c : Char} {rest : List Char} (h : ¬ pattern <+: c :: rest) (out : String) :
    replaceFrom pattern value 0 (c :: rest) out =
      replaceFrom pattern value 0 rest (out.push c) := by
  rw [replaceFrom, if_neg fun hprefix => h (List.isPrefixOf_iff_prefix.1 hprefix)]

/-- From some place on the replacement writes the text with the pattern replaced. -/
lemma replaceFrom_replaced (hpattern : pattern ≠ []) (text : List Char) (written : String) :
    ∃ out, Replaced pattern value.toList text out ∧
      (replaceFrom pattern value 0 text written).toList = written.toList ++ out := by
  -- by the length of the text, as an occurrence is passed over at once
  induction hlength : text.length using Nat.strong_induction_on generalizing text written with
  | _ length ih =>
    cases text with
    | nil => exact ⟨[], .nil, (List.append_nil _).symm⟩
    | cons c rest =>
      by_cases hfound : pattern <+: c :: rest
      · obtain ⟨rest', hrest'⟩ := hfound
        have hshort : rest'.length < length := by
          have hpos := List.length_pos_of_ne_nil hpattern
          rw [← hlength, ← hrest', List.length_append]
          omega
        obtain ⟨out, hout, htext⟩ := ih _ hshort rest' (written ++ value) rfl
        rw [← hrest', replaceFrom_found hpattern, htext, String.toList_append, List.append_assoc]
        exact ⟨_, .found hout, rfl⟩
      · have hshort : rest.length < length := by
          rw [← hlength]
          exact Nat.lt_succ_self rest.length
        obtain ⟨out, hout, htext⟩ := ih _ hshort rest (written.push c) rfl
        rw [replaceFrom_other hfound, htext, String.toList_push, List.append_assoc]
        exact ⟨_, .other hfound hout, rfl⟩

end

variable {pattern value text text' out out' kept back : List Char} {count count' : Nat}

/-! ## Texts that are left as they are -/

/-- A text without the pattern stays as it is. -/
lemma Replaced.eq_of_absent (h : Replaced pattern value text out) (habsent : ¬ pattern <:+: text) :
    out = text := by
  induction h with
  | nil => rfl
  | found => exact absurd (List.prefix_append pattern _).isInfix habsent
  | other _ _ ih => rw [ih fun hoccurs => habsent (hoccurs.trans (List.suffix_cons _ _).isInfix)]

/-- So does one where the pattern is put for itself. -/
lemma Replaced.eq_of_value (h : Replaced pattern value text out) (hvalue : value = pattern) :
    out = text := by
  induction h with
  | nil => rfl
  | found _ ih => rw [hvalue, ih]
  | other _ _ ih => rw [ih]

/-- To replace in a text is to do so from its beginning. -/
lemma replace_eq_replaceFrom (text pattern value : String) :
    replace text pattern value = replaceFrom pattern.toList value 0 text.toList "" := by
  rw [replace]
  split
  next => rfl
  next habsent =>
    rw [String.contains_string_iff] at habsent
    have hpattern : pattern.toList ≠ [] := fun h => habsent (h ▸ List.nil_infix)
    obtain ⟨out, hout, htext⟩ := replaceFrom_replaced hpattern text.toList ""
    rw [hout.eq_of_absent habsent] at htext
    exact String.toList_inj.1 htext.symm

/-- The text with replacements is the one in which the pattern is replaced from the left to the
right. -/
lemma replace_replaced {text pattern value : String} (hpattern : pattern ≠ "") :
    Replaced pattern.toList value.toList text.toList (replace text pattern value).toList := by
  have hne : pattern.toList ≠ [] := fun h => hpattern (String.toList_eq_nil_iff.1 h)
  obtain ⟨out, hout, htext⟩ := replaceFrom_replaced hne text.toList ""
  rw [replace_eq_replaceFrom, htext]
  exact hout

/-- In every text the pattern can be replaced. -/
lemma exists_replaced (hpattern : pattern ≠ []) (value text : List Char) :
    ∃ out, Replaced pattern value text out := by
  obtain ⟨out, hout, _⟩ :
      ∃ out, Replaced pattern (String.ofList value).toList text out ∧ _ :=
    replaceFrom_replaced hpattern text ""
  rw [String.toList_ofList] at hout
  exact ⟨out, hout⟩

/-- It is replaced in one way only. -/
lemma Replaced.unique (hpattern : pattern ≠ []) (h : Replaced pattern value text out)
    (h' : Replaced pattern value text out') : out = out' := by
  induction h generalizing out' with
  | nil =>
    generalize htext : ([] : List Char) = text at h'
    cases h' with
    | nil => rfl
    | found => exact absurd (List.append_eq_nil_iff.1 htext.symm).1 hpattern
    | other => cases htext
  | @found rest out _ ih =>
    generalize htext : pattern ++ rest = text at h'
    cases h' with
    | nil => exact absurd (List.append_eq_nil_iff.1 htext).1 hpattern
    | found hrest => rw [ih (List.append_cancel_left htext ▸ hrest)]
    | other hother => exact absurd ⟨rest, htext⟩ hother
  | @other c rest out hother _ ih =>
    generalize htext : c :: rest = text at h'
    cases h' with
    | nil => cases htext
    | found => exact absurd ⟨_, htext.symm⟩ hother
    | other _ hrest =>
      cases htext
      rw [ih hrest]

/-- A text that does not begin like the pattern keeps its first character. -/
lemma Replaced.head?_eq (hpattern : pattern ≠ []) (h : Replaced pattern value text out)
    (hhead : text.head? ≠ pattern.head?) : out.head? = text.head? := by
  cases h with
  | nil => rfl
  | found => exact absurd (List.head?_append_of_ne_nil pattern hpattern) hhead
  | other => rfl

/-- Characters other than the first one of the pattern are kept. -/
lemma Replaced.keep {first : Char} {xs : List Char} (hfirst : first ∉ xs)
    (h : Replaced (first :: pattern) value text out) :
    Replaced (first :: pattern) value (xs ++ text) (xs ++ out) := by
  induction xs with
  | nil => exact h
  | cons c xs ih =>
    rw [List.mem_cons, not_or] at hfirst
    apply Replaced.other _ (ih hfirst.2)
    exact fun hprefix => hfirst.1 (List.cons_prefix_cons.1 hprefix).1

/-! ## One text behind another -/

/-- Where a text meets an occurrence of the pattern, no other one begins in the text and ends behind
it, as the first character of the pattern stands nowhere else in it. -/
lemma prefix_of_prefix_append {first : Char} (hfirst : first ∉ pattern) (htext : text ≠ [])
    (hback : back = [] ∨ first :: pattern <+: back) (h : first :: pattern <+: text ++ back) :
    first :: pattern <+: text := by
  rcases List.prefix_or_prefix_of_prefix h (List.prefix_append text back) with hin | ⟨more, hmore⟩
  · exact hin
  · cases more with
    | nil =>
      rw [List.append_nil] at hmore
      exact hmore ▸ List.prefix_refl text
    | cons c more =>
      -- the occurrence goes on with the first character of the pattern
      rw [← hmore, List.prefix_append_right_inj] at h
      have hc : c = first := by
        rcases hback with rfl | hback
        · exact absurd (List.prefix_nil.1 h) (List.cons_ne_nil c more)
        · obtain ⟨rest, rfl⟩ := hback
          exact (List.cons_prefix_cons.1 h).1
      obtain ⟨d, text, rfl⟩ := List.exists_cons_of_ne_nil htext
      refine absurd ?_ hfirst
      rw [← (List.cons.inj hmore).2, hc]
      exact List.mem_append_right text List.mem_cons_self

/-- A text is replaced part by part when no occurrence stands across the parts. -/
lemma Replaced.append {first : Char} (hfirst : first ∉ pattern)
    (h : Replaced (first :: pattern) value text out)
    (hback : back = [] ∨ first :: pattern <+: back)
    (h' : Replaced (first :: pattern) value back out') :
    Replaced (first :: pattern) value (text ++ back) (out ++ out') := by
  induction h with
  | nil => exact h'
  | found _ ih =>
    rw [List.append_assoc, List.append_assoc]
    exact .found ih
  | other hother _ ih =>
    refine .other (fun hprefix => hother ?_) ih
    exact prefix_of_prefix_append hfirst (List.cons_ne_nil _ _) hback hprefix

/-- An occurrence lies on one side of a character that is not in the pattern. -/
lemma infix_append_cons_iff {c : Char} (hc : c ∉ pattern) :
    pattern <:+: text ++ c :: back ↔ pattern <:+: text ∨ pattern <:+: back := by
  constructor
  · rintro ⟨before, behind, hsame⟩
    rw [List.append_assoc] at hsame
    rcases List.append_eq_append_iff.1 hsame with ⟨x, rfl, hrest⟩ | ⟨x, rfl, hrest⟩
    · -- the occurrence begins before the character
      rcases List.append_eq_append_iff.1 hrest with ⟨y, rfl, _⟩ | ⟨y, rfl, hbehind⟩
      · exact .inl ⟨before, y, List.append_assoc _ _ _⟩
      · cases y with
        | nil => exact .inl ⟨before, [], by simp⟩
        | cons d y =>
          cases hbehind
          exact absurd (List.mem_append_right x List.mem_cons_self) hc
    · -- the occurrence begins at the character or behind it
      cases x with
      | nil =>
        rw [List.nil_append] at hrest
        cases pattern with
        | nil => exact .inl List.nil_infix
        | cons d pattern =>
          cases hrest
          exact absurd List.mem_cons_self hc
      | cons d x =>
        cases hrest
        exact .inr ⟨x, behind, List.append_assoc _ _ _⟩
  · rintro (h | h)
    · exact h.trans (List.prefix_append text _).isInfix
    · exact h.trans ((List.suffix_cons c back).trans (List.suffix_append text _)).isInfix

/-! ## Some of the occurrences -/

namespace PartlyReplaced

/-- A text is partly replaced when nothing is. -/
lemma refl (text : List Char) : PartlyReplaced pattern value 0 text text := by
  induction text with
  | nil => exact .nil
  | cons c text ih => exact .other ih

/-- Parts are replaced one after the other. -/
lemma append (h : PartlyReplaced pattern value count text out)
    (h' : PartlyReplaced pattern value count' text' out') :
    PartlyReplaced pattern value (count + count') (text ++ text') (out ++ out') := by
  induction h with
  | nil =>
    rw [Nat.zero_add]
    exact h'
  | found _ ih =>
    rw [List.append_assoc, List.append_assoc, Nat.add_right_comm]
    exact .found ih
  | other _ ih => exact .other ih

/-- For each occurrence the length changes from that of the pattern to that of the value. -/
lemma length_eq (h : PartlyReplaced pattern value count text out) :
    out.length + count * pattern.length = text.length + count * value.length := by
  induction h with
  | nil => rw [Nat.zero_mul, Nat.zero_mul]
  | found _ ih =>
    rw [List.length_append, List.length_append, Nat.succ_mul, Nat.succ_mul]
    omega
  | other _ ih =>
    rw [List.length_cons, List.length_cons]
    omega

/-- A text stays as it was exactly when nothing is replaced in it, or the pattern by itself. -/
lemma eq_iff (h : PartlyReplaced pattern value count text out) :
    out = text ↔ count = 0 ∨ value = pattern := by
  constructor
  · intro hsame
    refine (Nat.eq_zero_or_pos count).imp_right fun hpos => ?_
    have hlength : value.length = pattern.length := by
      have hcount := h.length_eq
      rw [hsame] at hcount
      exact Nat.eq_of_mul_eq_mul_left hpos (Nat.add_left_cancel hcount).symm
    induction h with
    | nil => exact absurd hpos (Nat.lt_irrefl 0)
    | found => exact (List.append_inj hsame hlength).1
    | other _ ih => exact ih (List.cons.inj hsame).2 hpos
  · intro hnothing
    induction h with
    | nil => rfl
    | found _ ih =>
      obtain rfl := hnothing.resolve_left (Nat.succ_ne_zero _)
      rw [ih (.inr rfl)]
    | other _ ih => rw [ih hnothing]

end PartlyReplaced

/-! ## What occurs afterwards -/

/-- Where the pattern occurs, its value occurs afterwards. -/
lemma Replaced.value_occurs (hpattern : pattern ≠ []) (h : Replaced pattern value text out)
    (hoccurs : pattern <:+: text) : value <:+: out := by
  induction h with
  | nil => exact absurd (List.infix_nil.1 hoccurs) hpattern
  | @found rest out _ _ => exact (List.prefix_append value out).isInfix
  | @other c rest out hother _ ih =>
    rcases List.infix_cons_iff.1 hoccurs with hprefix | hrest
    · exact absurd hprefix hother
    · exact (ih hrest).trans (List.suffix_cons c out).isInfix

/-- The occurrences that are replaced are a part of them. -/
lemma Replaced.partly (hpattern : pattern ≠ []) (h : Replaced pattern value text out) :
    ∃ count, PartlyReplaced pattern value count text out ∧ (0 < count ↔ pattern <:+: text) := by
  induction h with
  | nil =>
    refine ⟨0, .nil, fun hpos => absurd hpos (Nat.lt_irrefl 0), fun hoccurs => ?_⟩
    exact absurd (List.infix_nil.1 hoccurs) hpattern
  | found _ ih =>
    obtain ⟨count, hcount, _⟩ := ih
    refine ⟨count + 1, .found hcount, fun _ => ?_, fun _ => Nat.succ_pos count⟩
    exact (List.prefix_append pattern _).isInfix
  | other hother _ ih =>
    obtain ⟨count, hcount, hiff⟩ := ih
    refine ⟨count, .other hcount, ?_⟩
    rw [hiff, List.infix_cons_iff]
    exact (or_iff_right hother).symm

/-- A text that stays as it was has the value where the pattern occurs. -/
lemma Replaced.value_eq (hpattern : pattern ≠ []) (h : Replaced pattern value text out)
    (hsame : out = text) (hoccurs : pattern <:+: text) : value = pattern := by
  obtain ⟨count, hcount, hiff⟩ := h.partly hpattern
  exact (hcount.eq_iff.1 hsame).resolve_left (Nat.ne_of_gt (hiff.2 hoccurs))

/-- Characters at which the pattern does not begin are kept. -/
lemma Replaced.copy (h : Replaced pattern value (kept ++ back) out)
    (hkept : ∀ tail, tail <:+ kept → tail ≠ [] → ¬ pattern <+: tail ++ back) : kept <+: out := by
  induction kept generalizing out with
  | nil => exact List.nil_prefix
  | cons c kept ih =>
    have hhere := hkept _ (List.suffix_refl _) (List.cons_ne_nil c kept)
    generalize htext : c :: kept ++ back = text at h
    cases h with
    | nil => cases htext
    | found => exact absurd ⟨_, htext.symm⟩ hhere
    | other _ hrest =>
      cases htext
      apply List.cons_prefix_cons.2 ⟨rfl, ih hrest fun tail htail => ?_⟩
      exact hkept tail (htail.trans (List.suffix_cons c kept))

/-- What stands apart from a pattern does not occur in it. -/
lemma Apart.not_occurs (hkept : kept ≠ []) (h : Apart pattern kept) : ¬ kept <:+: pattern := by
  rintro ⟨x, y, hoccurs⟩
  have hlength := List.length_pos_of_ne_nil hkept
  have hwhole := congrArg List.length hoccurs
  rw [List.length_append, List.length_append] at hwhole
  rcases h [] [] x y (by rw [List.nil_append, List.append_nil, hoccurs]) with hbehind | hfront
  · rw [List.length_nil] at hbehind
    omega
  · rw [List.length_nil] at hfront
    omega

/-- What never overlaps the pattern still occurs. -/
lemma Replaced.keeps (hpattern : pattern ≠ []) (hkept : kept ≠ []) (hapart : Apart pattern kept)
    (h : Replaced pattern value text out) (hoccurs : kept <:+: text) : kept <:+: out := by
  induction h with
  | nil => exact hoccurs
  | @found rest out _ ih =>
    obtain ⟨x, y, htext⟩ := hoccurs
    have hlength := List.length_pos_of_ne_nil hkept
    rcases hapart [] rest x y htext.symm with hbehind | hfront
    · -- the occurrence lies behind the one that is replaced
      rw [List.append_assoc] at htext
      have hfront : pattern <+: x := by
        apply List.prefix_of_prefix_length_le (List.prefix_append pattern rest)
        · rw [← htext]
          exact List.prefix_append x (kept ++ y)
        · rwa [List.length_nil, Nat.zero_add] at hbehind
      obtain ⟨z, rfl⟩ := hfront
      rw [List.append_assoc] at htext
      have hrest : kept <:+: rest :=
        ⟨z, y, by rw [List.append_assoc, List.append_cancel_left htext]⟩
      exact (ih hrest).trans (List.suffix_append value out).isInfix
    · -- it cannot begin before the text does
      rw [List.length_nil] at hfront
      omega
  | @other c rest out hother hrest ih =>
    rcases List.infix_cons_iff.1 hoccurs with hprefix | hrest'
    · obtain ⟨back, hback⟩ := hprefix
      -- the occurrence begins here; it is copied, as no occurrence of the pattern reaches into it
      have hhere : Replaced pattern value (kept ++ back) (c :: out) := hback ▸ .other hother hrest
      apply List.IsPrefix.isInfix
      apply hhere.copy
      rintro tail ⟨front, rfl⟩ htail ⟨y, hy⟩
      have hsame : front ++ pattern ++ y = [] ++ (front ++ tail) ++ back := by
        rw [List.append_assoc, hy, List.nil_append, List.append_assoc]
      have hpatternLength := List.length_pos_of_ne_nil hpattern
      have htailLength := List.length_pos_of_ne_nil htail
      rcases hapart front y [] back hsame with h | h
      · rw [List.length_nil] at h
        omega
      · rw [List.length_nil, List.length_append] at h
        omega
    · exact (ih hrest').trans (List.suffix_cons c out).isInfix

end ConfigPack.Text
