import ConfigPack.Proofs.Bytes
import ConfigPack.Proofs.Digest.Encoding
import Mathlib.Data.List.DropRight
import Mathlib.Data.List.Forall2
import Mathlib.Tactic.IntervalCases

/-!
# Expected checksums

A text is accepted for data exactly when it spells the checksum of the data in one of the encodings,
with blanks around it (`verifyChecksum_eq_ok`).  The text alone decides in which encoding it is
read, and an encoding writes different digests as different texts; so no text is accepted for two
digests (`accepts_one_digest`).
-/

namespace ConfigPack

/-! ## Ends of texts -/

namespace Text

/-- A text of white space. -/
def IsBlank (text : String) : Prop := ∀ c ∈ text.toList, isWhite c = true

instance (text : String) : Decidable (IsBlank text) :=
  List.decidableBAll (isWhite · = true) text.toList

/-- To trim a text is to drop white space from its two ends. -/
lemma trim_eq (text : String) :
    trim text = String.ofList ((text.toList.dropWhile isWhite).rdropWhile isWhite) := rfl

/-- A text is what is left of it when it is trimmed, with blanks around. -/
lemma exists_eq_trim (text : String) :
    ∃ front back, IsBlank front ∧ IsBlank back ∧ text = front ++ trim text ++ back := by
  refine ⟨String.ofList (text.toList.takeWhile isWhite),
    String.ofList ((text.toList.dropWhile isWhite).rtakeWhile isWhite), ?_, ?_, ?_⟩
  · intro c hc
    rw [String.toList_ofList] at hc
    exact List.mem_takeWhile_imp hc
  · intro c hc
    rw [String.toList_ofList] at hc
    exact List.mem_rtakeWhile_imp hc
  · apply String.toList_inj.1
    rw [trim_eq, String.toList_append, String.toList_append, String.toList_ofList,
      String.toList_ofList, String.toList_ofList, List.append_assoc,
      List.rdropWhile_append_rtakeWhile, List.takeWhile_append_dropWhile]

/-- Nothing is dropped from a list that begins with nothing to drop. -/
lemma dropWhile_eq_self {p : Char → Bool} {l : List Char} (h : ∀ c ∈ l, p c = false) :
    l.dropWhile p = l := by
  cases l with
  | nil => rfl
  | cons c l => exact List.dropWhile_cons_of_neg (by simp [h c List.mem_cons_self])

/-- Blanks around a word without white space are trimmed away. -/
lemma trim_surrounded {front word back : String} (hfront : IsBlank front) (hback : IsBlank back)
    (hword : ∀ c ∈ word.toList, isWhite c = false) : trim (front ++ word ++ back) = word := by
  have hleft : (front ++ word ++ back).toList.dropWhile isWhite =
      (word.toList ++ back.toList).dropWhile isWhite := by
    rw [String.toList_append, String.toList_append, List.append_assoc]
    exact List.dropWhile_append_of_pos hfront
  apply String.toList_inj.1
  rw [trim_eq, String.toList_ofList, hleft]
  by_cases hempty : word.toList = []
  · have hnothing : back.toList.dropWhile isWhite = [] := by
      simpa [IsBlank] using hback
    rw [hempty, List.nil_append, hnothing, List.rdropWhile_nil]
  · have hstart : (word.toList ++ back.toList).dropWhile isWhite = word.toList ++ back.toList := by
      rw [List.dropWhile_append, dropWhile_eq_self hword, if_neg (by simpa using hempty)]
    rw [hstart, List.rdropWhile, List.reverse_append,
      List.dropWhile_append_of_pos (fun c hc => hback c (List.mem_reverse.1 hc)),
      dropWhile_eq_self (fun c hc => hword c (List.mem_reverse.1 hc)), List.reverse_reverse]

end Text

/-- Padding is dropped from the end of a word. -/
lemma dropPadding_eq (word : String) :
    dropPadding word = String.ofList (word.toList.rdropWhile (· = '=')) := rfl

/-- Padding is all that is taken from the end of a text without any. -/
lemma dropPadding_eq_iff {word text : String} (h : '=' ∉ text.toList) :
    dropPadding word = text ↔ ∃ count, word = text ++ String.ofList (List.replicate count '=') := by
  constructor
  · rintro rfl
    have hpadding : ∀ c ∈ word.toList.rtakeWhile (· = '='), c = '=' := fun c hc => by
      simpa using List.mem_rtakeWhile_imp hc
    refine ⟨(word.toList.rtakeWhile (· = '=')).length, String.toList_inj.1 ?_⟩
    rw [← List.eq_replicate_of_mem hpadding, dropPadding_eq, String.toList_append, String.toList_ofList,
      String.toList_ofList, List.rdropWhile_append_rtakeWhile]
  · rintro ⟨count, rfl⟩
    apply String.toList_inj.1
    rw [dropPadding_eq, String.toList_ofList, String.toList_append, String.toList_ofList]
    induction count with
    | zero =>
      rw [List.replicate_zero, List.append_nil, List.rdropWhile_eq_self_iff]
      intro hne hlast
      have heq : text.toList.getLast hne = '=' := by simpa using hlast
      exact h (heq ▸ List.getLast_mem hne)
    | succ count ih =>
      rw [List.replicate_succ', ← List.append_assoc, List.rdropWhile_concat_pos _ _ _ (by simp), ih]

/-! ## Spellings -/

/-- A word that is a text but for the case of its letters. -/
def SameButCase (word text : String) : Prop :=
  List.Forall₂ (fun c d => c = d ∨ c = d.toUpper) word.toList text.toList

namespace DigestEncoding

/-- The words that stand for a text of an encoding: hexadecimal digits in either case, base 64 with
any number of equals signs behind it. -/
def Spells (word text : String) : DigestEncoding → Prop
  | hex => SameButCase word text
  | base64url => ∃ count, word = text ++ String.ofList (List.replicate count '=')

/-- The text of an encoding that a word is compared as. -/
def plain (word : String) : DigestEncoding → String
  | hex => Text.lowerAscii word
  | base64url => dropPadding word

end DigestEncoding

/-- A letter is the small letter that it is lowered to, or the capital of that. -/
lemma eq_toLower_or (c : Char) : c = c.toLower ∨ c = c.toLower.toUpper := by
  by_cases h : c.val ≥ 'A'.val ∧ c.val ≤ 'Z'.val
  · have hleast : 65 ≤ c.toNat := h.1
    have hmost : c.toNat ≤ 90 := h.2
    right
    rw [← Char.ofNat_toNat c]
    interval_cases c.toNat <;> decide
  · left
    delta Char.toLower
    rw [dif_neg h]

/-- Words that are a text of small letters but for the case are lowered to it. -/
lemma sameButCase_iff {word text : String}
    (h : ∀ d ∈ text.toList, d.toLower = d ∧ d.toUpper.toLower = d) :
    SameButCase word text ↔ Text.lowerAscii word = text := by
  rw [← String.toList_inj, Text.lowerAscii, String.toList_map, SameButCase]
  constructor
  · generalize word.toList = cs, text.toList = ds at h ⊢
    intro hsame
    induction hsame with
    | nil => rfl
    | @cons c d cs ds hc _ ih =>
      have hlower : c.toLower = d := by
        rcases hc with rfl | rfl
        · exact (h _ List.mem_cons_self).1
        · exact (h _ List.mem_cons_self).2
      rw [List.map_cons, hlower, ih fun d hd => h d (List.mem_cons_of_mem _ hd)]
  · intro hlower
    rw [← hlower, List.forall₂_map_right_iff, List.forall₂_same]
    exact fun c _ => eq_toLower_or c

/-- Words that are the same but for case have one length. -/
lemma SameButCase.length_eq {word text : String} (h : SameButCase word text) :
    word.length = text.length := by
  rw [← String.length_toList, ← String.length_toList]
  exact List.Forall₂.length_eq h

/-- What is true of the small and the capital forms of a text is true of all characters of a
word. -/
lemma SameButCase.forall_mem {P : Char → Prop} {word text : String} (h : SameButCase word text)
    (htext : ∀ d ∈ text.toList, P d ∧ P d.toUpper) : ∀ c ∈ word.toList, P c := by
  rw [SameButCase] at h
  generalize word.toList = cs, text.toList = ds at h htext ⊢
  induction h with
  | nil => exact fun c hc => absurd hc List.not_mem_nil
  | @cons c d cs ds hc _ ih =>
    have hd := htext d List.mem_cons_self
    rw [List.forall_mem_cons]
    refine ⟨?_, ih fun d hd => htext d (List.mem_cons_of_mem _ hd)⟩
    rcases hc with rfl | rfl
    · exact hd.1
    · exact hd.2

/-! ## The text of a digest -/

namespace Sha256

/-- A digest has 256 bits. -/
lemma size_digest (data : ByteArray) : (digest data).data.toList.length = 32 := by
  simp [digest]

end Sha256

section

variable {word : String} {data other : ByteArray} {encoding : DigestEncoding}

/-- What is true of the sixteen digits is true of all characters of a hexadecimal checksum. -/
lemma forall_mem_checksum_hex {P : Char → Prop} (h : ∀ n < 16, P (Nat.digitChar n)) :
    ∀ c ∈ (checksum .hex data).toList, P c := by
  rw [checksum, DigestEncoding.encode, String.toList_ofList]
  exact DigestEncoding.forall_mem_hex h

/-- The shorter spelling has digits of its alphabet only. -/
lemma mem_checksum_base64 {c : Char} (hc : c ∈ (checksum .base64url data).toList) :
    c ∈ DigestEncoding.base64Digits := by
  rw [checksum, DigestEncoding.encode, String.toList_ofList] at hc
  exact DigestEncoding.mem_base64 hc

/-- The longer spelling has two digits for each of 32 bytes. -/
lemma length_checksum_hex (data : ByteArray) : (checksum .hex data).length = 64 := by
  rw [checksum, DigestEncoding.encode, String.length_ofList, DigestEncoding.length_hex,
    Sha256.size_digest]

/-- The shorter one has 43 digits. -/
lemma length_checksum_base64 (data : ByteArray) : (checksum .base64url data).length = 43 := by
  rw [checksum, DigestEncoding.encode, String.length_ofList, DigestEncoding.length_base64,
    Sha256.size_digest]

/-- Words that stand for a checksum are those that are compared as it. -/
lemma spells_iff :
    encoding.Spells word (checksum encoding data) ↔ encoding.plain word = checksum encoding data := by
  cases encoding with
  | hex => exact sameButCase_iff (forall_mem_checksum_hex (by decide))
  | base64url =>
    have hpadding : '=' ∉ (checksum .base64url data).toList := fun h =>
      absurd (mem_checksum_base64 h) (by decide)
    exact (dropPadding_eq_iff hpadding).symm

/-- In a word that stands for a checksum there is no white space. -/
lemma isWhite_of_spells (h : encoding.Spells word (checksum encoding data)) :
    ∀ c ∈ word.toList, Text.isWhite c = false := by
  cases encoding with
  | hex => exact SameButCase.forall_mem h (forall_mem_checksum_hex (by decide))
  | base64url =>
    obtain ⟨count, rfl⟩ := h
    have hdigits : DigestEncoding.base64Digits.all (!Text.isWhite ·) = true := by decide
    intro c hc
    rw [String.toList_append, String.toList_ofList, List.mem_append] at hc
    rcases hc with hc | hc
    · simpa using List.all_eq_true.1 hdigits c (mem_checksum_base64 hc)
    · rw [List.eq_of_mem_replicate hc]
      decide

/-- A word is taken to be in the encoding in which it stands for a checksum: hexadecimal checksums
have 64 digits, those in base 64 only 43, and the padding behind them is not of digits. -/
lemma of_spells (h : encoding.Spells word (checksum encoding data)) :
    DigestEncoding.of word = encoding := by
  cases encoding with
  | hex =>
    have hlength : word.length = 64 :=
      (SameButCase.length_eq h).trans (length_checksum_hex data)
    have hdigits : ∀ c ∈ word.toList, isHexDigit c = true :=
      SameButCase.forall_mem h (forall_mem_checksum_hex (by decide))
    rw [DigestEncoding.of, if_pos ⟨hlength, List.all_eq_true.2 hdigits⟩]
  | base64url =>
    obtain ⟨count, rfl⟩ := h
    rw [DigestEncoding.of, if_neg]
    rintro ⟨hlength, hdigits⟩
    rw [String.length_append, String.length_ofList, List.length_replicate,
      length_checksum_base64] at hlength
    have hmem : '=' ∈ (checksum .base64url data ++
        String.ofList (List.replicate count '=')).toList := by
      rw [String.toList_append, String.toList_ofList, List.mem_append]
      exact .inr (List.mem_replicate.2 ⟨by omega, rfl⟩)
    exact absurd (List.all_eq_true.1 hdigits _ hmem) (by decide)

/-- No word stands for the checksums of two digests, be it in one encoding or in two. -/
lemma digest_eq_of_spells {encoding' : DigestEncoding}
    (h : encoding.Spells word (checksum encoding data))
    (h' : encoding'.Spells word (checksum encoding' other)) :
    Sha256.digest data = Sha256.digest other := by
  obtain rfl : encoding = encoding' := (of_spells h).symm.trans (of_spells h')
  apply encoding.encode_injective
  exact (spells_iff.1 h).symm.trans (spells_iff.1 h')

/-! ## The comparison -/

/-- Data is accepted when the trimmed text stands for its checksum in one of the encodings. -/
lemma verifyChecksum_eq_ok {expected : String} :
    verifyChecksum data expected = .ok () ↔
      ∃ encoding, DigestEncoding.Spells (Text.trim expected) (checksum encoding data) encoding := by
  have hplain : verifyChecksum data expected = .ok () ↔
      (DigestEncoding.of (Text.trim expected)).plain (Text.trim expected) =
        checksum (DigestEncoding.of (Text.trim expected)) data := by
    rw [eq_comm (b := checksum _ data)]
    cases hencoding : DigestEncoding.of (Text.trim expected) <;>
      simp [verifyChecksum, hencoding, DigestEncoding.plain]
  rw [hplain]
  constructor
  · exact fun h => ⟨_, spells_iff.2 h⟩
  · rintro ⟨encoding, h⟩
    rw [of_spells h, spells_iff.1 h]

end

/-- Exactly those texts are accepted for data that spell its checksum in one of the encodings, with
blanks around, and none of them is accepted for data of another digest. -/
theorem accepts_one_digest (data : ByteArray) (expected : String) :
    (verifyChecksum data expected = .ok () ↔
      ∃ encoding front word back, expected = front ++ word ++ back ∧ Text.IsBlank front ∧
        Text.IsBlank back ∧ DigestEncoding.Spells word (checksum encoding data) encoding) ∧
    ∀ other, verifyChecksum data expected = .ok () → verifyChecksum other expected = .ok () →
      Sha256.digest data = Sha256.digest other := by
  refine ⟨verifyChecksum_eq_ok.trans ⟨?_, ?_⟩, fun other hdata hother => ?_⟩
  · rintro ⟨encoding, hspells⟩
    obtain ⟨front, back, hfront, hback, htext⟩ := Text.exists_eq_trim expected
    exact ⟨encoding, front, Text.trim expected, back, htext, hfront, hback, hspells⟩
  · rintro ⟨encoding, front, word, back, rfl, hfront, hback, hspells⟩
    rw [Text.trim_surrounded hfront hback (isWhite_of_spells hspells)]
    exact ⟨encoding, hspells⟩
  · obtain ⟨encoding, hspells⟩ := verifyChecksum_eq_ok.1 hdata
    obtain ⟨encoding', hspells'⟩ := verifyChecksum_eq_ok.1 hother
    exact digest_eq_of_spells hspells hspells'

/-- Two spellings of the digest of `abc` are accepted, with padding, with blanks and in either case.
-/
theorem accepts_abc :
    verifyChecksum "abc".toUTF8 "\tungWv48Bz-pBQUDeXa4iI7ADYaOWF3qctBD_YfIAFa0=\n" = .ok () ∧
      verifyChecksum "abc".toUTF8
        " BA7816BF8F01CFEA414140DE5DAE2223b00361a396177a9cb410ff61f20015ad" = .ok () ∧
      Sha256.digest "abc".toUTF8 = Sha256.digest ⟨#[97, 98, 99]⟩ := by
  have hpadded : verifyChecksum "abc".toUTF8
      ("\t" ++ "ungWv48Bz-pBQUDeXa4iI7ADYaOWF3qctBD_YfIAFa0=" ++ "\n") = .ok () := by
    refine (accepts_one_digest _ _).1.2
      ⟨.base64url, "\t", _, "\n", rfl, by decide, by decide, 1, ?_⟩
    decide +kernel
  have hmixed : verifyChecksum "abc".toUTF8
      (" " ++ "BA7816BF8F01CFEA414140DE5DAE2223b00361a396177a9cb410ff61f20015ad" ++ "") =
        .ok () := by
    refine (accepts_one_digest _ _).1.2
      ⟨.hex, " ", _, "", rfl, by decide, by decide, ?_⟩
    exact spells_iff.2 (by decide +kernel)
  exact ⟨hpadded, hmixed, (accepts_one_digest _ _).2 ⟨#[97, 98, 99]⟩ hpadded (by decide +kernel)⟩

end ConfigPack
