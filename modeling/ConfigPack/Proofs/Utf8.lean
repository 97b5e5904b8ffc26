import ConfigPack.Text.Utf8
import Mathlib.Tactic.Common

/-!
# Encoded texts

The bytes of a text, one character after the other, and the text that they are decoded to.  Texts
are compared by code point, character after character, and their bytes are in the same order
(`toUTF8_lt`): a character with a greater code point begins with a greater byte, or has a greater
byte behind bytes that are the same.
-/

namespace ConfigPack.Utf8

/-- Text is decoded from its own bytes only. -/
lemma decode_eq_ok {bytes : ByteArray} {text : String} :
    decode bytes = .ok text ↔ bytes = text.toUTF8 := by
  rw [decode]
  constructor
  · intro h
    split at h
    next hsome =>
      cases h
      rw [String.fromUTF8?] at hsome
      split at hsome
      · cases hsome
        rfl
      · cases hsome
    next => cases h
  · rintro rfl
    have hvalid : text.toUTF8.IsValidUTF8 := text.isValidUTF8
    rw [String.fromUTF8?, dif_pos hvalid]
    rfl

/-- One of the first 128 characters is one byte. -/
lemma encodeChar_ascii {c : Char} (h : c.toNat < 128) :
    String.utf8EncodeChar c = [UInt8.ofNat c.toNat] := by
  have hle : c.val.toNat ≤ 127 := by
    change c.toNat ≤ 127
    omega
  simp only [String.utf8EncodeChar, hle, if_true]
  rfl

/-- The bytes of a text are those of its characters. -/
lemma toList_toUTF8 (text : String) :
    text.toUTF8.data.toList = text.toList.flatMap String.utf8EncodeChar := by
  conv_lhs => rw [← String.ofList_toList (s := text)]
  exact (congrArg (fun b : ByteArray => b.data.toList) String.toByteArray_ofList).trans
    List.toList_data_toByteArray

/-- Bytes below 128 are those of the characters with their numbers. -/
lemma flatMap_encodeChar_ascii :
    ∀ {bytes : List UInt8}, (∀ b ∈ bytes, b < 128) →
      (bytes.map fun b => Char.ofNat b.toNat).flatMap String.utf8EncodeChar = bytes
  | [], _ => rfl
  | b :: bytes, h => by
    obtain ⟨hb, hbytes⟩ := List.forall_mem_cons.1 h
    have hlt : b.toNat < 128 := hb
    have hchar : (Char.ofNat b.toNat).toNat = b.toNat := by
      rw [Char.ofNat, dif_pos (.inl (by omega))]
      rfl
    rw [List.map_cons, List.flatMap_cons, encodeChar_ascii (by rwa [hchar]), hchar,
      flatMap_encodeChar_ascii hbytes, UInt8.ofNat_toNat, List.singleton_append]

/-- The characters of a text are its bytes where these stand for one character each. -/
lemma toList_of_ascii {text : String} (h : ∀ b ∈ text.toUTF8.data.toList, b < 128) :
    text.toList = text.toUTF8.data.toList.map fun b => Char.ofNat b.toNat := by
  have hsame : String.ofList (text.toUTF8.data.toList.map fun b => Char.ofNat b.toNat) = text := by
    refine String.toByteArray_inj.1 (ByteArray.ext (Array.toList_inj.1 ?_))
    have hlist :=
      toList_toUTF8 (String.ofList (text.toUTF8.data.toList.map fun b => Char.ofNat b.toNat))
    rw [String.toList_ofList, flatMap_encodeChar_ascii h] at hlist
    exact hlist
  conv_lhs => rw [← hsame, String.toList_ofList]

/-! ## Replacement -/

/-- The code point of the character for a number. -/
lemma toNat_ofNat {n : Nat} (h : n.isValidChar) : (Char.ofNat n).toNat = n := by
  rw [Char.ofNat, dif_pos h]
  rfl

/-- A byte that goes on with a character is one of the 64 from 128 on. -/
lemma isContinuation_iff {b : UInt8} :
    isContinuation b = true ↔ 128 ≤ b.toNat ∧ b.toNat < 192 := by
  simp only [isContinuation, Bool.and_eq_true, decide_eq_true_eq, UInt8.le_iff_toNat_le]
  change 128 ≤ b.toNat ∧ b.toNat ≤ 191 ↔ _
  omega

/-- The second byte of a character keeps it above the shorter forms, out of the surrogates and below
the last code point. -/
lemma bounds_of_secondFits {first second : UInt8} (h : secondFits first second = true) :
    128 ≤ second.toNat ∧ second.toNat < 192 ∧ (first.toNat = 0xe0 → 0xa0 ≤ second.toNat) ∧
      (first.toNat = 0xed → second.toNat < 0xa0) ∧ (first.toNat = 0xf0 → 0x90 ≤ second.toNat) ∧
      (first.toNat = 0xf4 → second.toNat < 0x90) := by
  unfold secondFits at h
  split at h
  case h_5 he0 hed hf0 hf4 =>
    rw [isContinuation_iff] at h
    have hne : ∀ n : UInt8, first ≠ n → first.toNat ≠ n.toNat :=
      fun n hne he => hne (UInt8.toNat_inj.1 he)
    exact ⟨h.1, h.2, fun e => absurd e (hne _ he0), fun e => absurd e (hne _ hed),
      fun e => absurd e (hne _ hf0), fun e => absurd e (hne _ hf4)⟩
  all_goals
    simp only [Bool.and_eq_true, decide_eq_true_eq, UInt8.le_iff_toNat_le, UInt8.reduceToNat] at h
    simp only [UInt8.reduceToNat]
    omega

/-- A character that is read is a byte below 128, or it lies above them as its first byte does. -/
lemma step_char {b : UInt8} {rest : List UInt8} {c : Char} {size : Nat}
    (h : step b rest = .char c size) :
    (b < 128 ∧ c = Char.ofNat b.toNat ∧ size = 1) ∨ (128 ≤ b.toNat ∧ 128 ≤ c.toNat) := by
  unfold step at h
  split at h
  next hlow =>
    cases h
    exact .inl ⟨hlow, rfl, rfl⟩
  next hlow =>
  have hlow : 128 ≤ b.toNat := by simpa [UInt8.lt_iff_toNat_lt] using hlow
  refine .inr ⟨hlow, ?_⟩
  simp only [UInt8.lt_iff_toNat_lt, UInt8.reduceToNat] at h
  split at h
  · cases h
  -- two bytes
  split at h
  · split at h
    · cases h
    · split at h
      next second _ hsecond =>
        cases h
        rw [isContinuation_iff] at hsecond
        rw [toNat_ofNat (.inl (by simp only [low]; omega)), low]
        omega
      next => cases h
  -- three bytes
  split at h
  · split at h
    · cases h
    · split at h
      next second _ hsecond =>
        have := bounds_of_secondFits hsecond
        split at h
        · cases h
        next third _ =>
          split at h
          next hthird =>
            cases h
            rw [isContinuation_iff] at hthird
            have hvalid :
                Nat.isValidChar (b.toNat % 16 * 4096 + low second * 64 + low third) := by
              simp only [Nat.isValidChar, low]
              omega
            rw [toNat_ofNat hvalid, low, low]
            omega
          next => cases h
      next => cases h
  -- four bytes
  split at h
  · split at h
    · cases h
    · split at h
      next second _ hsecond =>
        have := bounds_of_secondFits hsecond
        split at h
        · cases h
        next third _ =>
          split at h
          next hthird =>
            rw [isContinuation_iff] at hthird
            split at h
            · cases h
            next fourth _ =>
              split at h
              next hfourth =>
                cases h
                rw [isContinuation_iff] at hfourth
                have hvalid : Nat.isValidChar (b.toNat % 8 * 262144 + low second * 4096 +
                    low third * 64 + low fourth) := by
                  simp only [Nat.isValidChar, low]
                  omega
                rw [toNat_ofNat hvalid, low, low, low]
                omega
              next => cases h
          next => cases h
      next => cases h
  · cases h

/-- What is decoded is put behind what was decoded before. -/
lemma toList_lossyFrom (bytes : List UInt8) (skip : Nat) (out : String) :
    (lossyFrom skip bytes out).toList = out.toList ++ (lossyFrom skip bytes "").toList := by
  induction bytes generalizing skip out with
  | nil => simp [lossyFrom]
  | cons b rest ih =>
    cases skip with
    | succ skip => exact ih skip out
    | zero =>
      simp only [lossyFrom]
      split
      · rw [ih, ih _ ("".push _), String.toList_push, String.toList_push, List.append_assoc]
        rfl
      · rw [ih, ih _ ("".push _), String.toList_push, String.toList_push, List.append_assoc]
        rfl
      · rw [String.toList_push, String.toList_push]
        rfl

/-- A character of a text with replacements is one of the bytes below 128 or lies above them. -/
lemma mem_lossyFrom {c : Char} (bytes : List UInt8) (skip : Nat)
    (h : c ∈ (lossyFrom skip bytes "").toList) :
    128 ≤ c.toNat ∨ ∃ b ∈ bytes, b < 128 ∧ c = Char.ofNat b.toNat := by
  -- byte by byte; bytes of a character that has been read are passed over
  induction bytes generalizing skip with
  | nil => simp [lossyFrom] at h
  | cons b rest ih =>
    have hrest : ∀ skip, c ∈ (lossyFrom skip rest "").toList →
        128 ≤ c.toNat ∨ ∃ b' ∈ b :: rest, b' < 128 ∧ c = Char.ofNat b'.toNat := by
      intro skip hc
      exact (ih skip hc).imp_right fun ⟨b', hb', hlow⟩ => ⟨b', List.mem_cons_of_mem _ hb', hlow⟩
    cases skip with
    | succ skip => exact hrest skip h
    | zero =>
      simp only [lossyFrom] at h
      split at h
      next c' size hstep =>
        rw [toList_lossyFrom] at h
        simp only [String.toList_push, String.toList_empty, List.nil_append, List.cons_append,
          List.mem_cons] at h
        rcases h with rfl | h
        · rcases step_char hstep with ⟨hlow, rfl, -⟩ | ⟨-, hhigh⟩
          · exact .inr ⟨b, List.mem_cons_self, hlow, rfl⟩
          · exact .inl hhigh
        · exact hrest _ h
      next =>
        rw [toList_lossyFrom] at h
        simp only [String.toList_push, String.toList_empty, List.nil_append, List.cons_append,
          List.mem_cons] at h
        rcases h with rfl | h
        · exact .inl (by decide)
        · exact hrest _ h
      next =>
        simp only [String.toList_push, String.toList_empty, List.nil_append,
          List.mem_singleton] at h
        exact .inl (h ▸ by decide)

/-- Where a byte lies above 127 so does a character of the text with replacements. -/
lemma exists_lossyFrom {bytes : List UInt8} (h : ∃ b ∈ bytes, 128 ≤ b.toNat) :
    ∃ c ∈ (lossyFrom 0 bytes "").toList, 128 ≤ c.toNat := by
  induction bytes with
  | nil => simp at h
  | cons b rest ih =>
    simp only [lossyFrom]
    split
    next c size hstep =>
      rw [toList_lossyFrom]
      rcases step_char hstep with ⟨hlow, rfl, rfl⟩ | ⟨-, hhigh⟩
      · have hrest : ∃ b ∈ rest, 128 ≤ b.toNat := by
          obtain ⟨b', hb', hhigh⟩ := h
          rcases List.mem_cons.1 hb' with rfl | hb'
          · exact absurd hlow (UInt8.not_lt.2 hhigh)
          · exact ⟨b', hb', hhigh⟩
        obtain ⟨c, hc, hhigh⟩ := ih hrest
        exact ⟨c, List.mem_append_right _ hc, hhigh⟩
      · exact ⟨c, by simp, hhigh⟩
    next =>
      rw [toList_lossyFrom]
      exact ⟨'\ufffd', by simp, by decide⟩
    next => exact ⟨'\ufffd', by simp, by decide⟩

/-- Bytes that are no text have one above 127. -/
lemma exists_high_of_decode {bytes : ByteArray} {fault : Fault} (h : decode bytes = .error fault) :
    ∃ b ∈ bytes.data.toList, 128 ≤ b.toNat := by
  by_contra hlow
  simp only [not_exists, not_and, Nat.not_le] at hlow
  have htext : bytes = (String.ofList (bytes.data.toList.map fun b => Char.ofNat b.toNat)).toUTF8 := by
    refine ByteArray.ext (Array.toList_inj.1 ?_)
    rw [toList_toUTF8, String.toList_ofList, flatMap_encodeChar_ascii fun b hb => hlow b hb]
  rw [decode_eq_ok.2 htext] at h
  cases h

/-- Bytes that are no text are decoded with replacements. -/
lemma decodeLossy_of_decode {bytes : ByteArray} {fault : Fault} (h : decode bytes = .error fault) :
    decodeLossy bytes = lossyFrom 0 bytes.data.toList "" := by
  rw [decode] at h
  split at h
  · cases h
  next hnone => rw [decodeLossy, hnone]

/-! ## Order -/

/-- Of two numbers the greater is told by what stands before its last six bits, or else by these. -/
lemma sextets_lt {v v' : Nat} (h : v < v') :
    v / 64 < v' / 64 ∨ v / 64 = v' / 64 ∧ v % 64 < v' % 64 := by
  omega

/-- Characters are told apart within their bytes, whatever follows. -/
lemma encodeChar_append_lt {c c' : Char} (h : c < c') (rest rest' : List UInt8) :
    String.utf8EncodeChar c ++ rest < String.utf8EncodeChar c' ++ rest' := by
  have hlt : c.val.toNat < c'.val.toNat := h
  have hmax : c'.val.toNat < 1114112 := by
    have := c'.valid
    simp only [UInt32.isValidChar, Nat.isValidChar] at this
    omega
  simp only [String.utf8EncodeChar]
  generalize c.val.toNat = v at hlt ⊢
  generalize c'.val.toNat = v' at hlt hmax ⊢
  -- the bytes hold the digits of six bits, so the quotients are taken one after the other
  have h4096 : ∀ n : Nat, n / 4096 = n / 64 / 64 := fun n => by omega
  have h262144 : ∀ n : Nat, n / 262144 = n / 64 / 64 / 64 := fun n => by omega
  simp only [h4096, h262144]
  split_ifs
  all_goals
    simp only [List.cons_append, List.nil_append, List.cons_lt_cons_iff, UInt8.lt_iff_toNat_lt,
      ← UInt8.toNat_inj, UInt8.toNat_ofNat']
    rcases sextets_lt hlt with hfront | ⟨hfront, hlast⟩
  all_goals omega

/-- The bytes of characters are in the order of the characters. -/
lemma flatMap_encodeChar_lt {cs cs' : List Char} (h : cs < cs') :
    cs.flatMap String.utf8EncodeChar < cs'.flatMap String.utf8EncodeChar := by
  rw [← List.lex_lt] at h
  induction h with
  | @nil c rest =>
    obtain ⟨first, bytes, hbytes⟩ :=
      List.exists_cons_of_ne_nil (String.utf8EncodeChar_ne_nil (c := c))
    rw [List.flatMap_nil, List.flatMap_cons, hbytes, List.cons_append]
    exact List.nil_lt_cons _ _
  | rel h =>
    rw [List.flatMap_cons, List.flatMap_cons]
    exact encodeChar_append_lt h _ _
  | cons _ ih =>
    rw [List.flatMap_cons, List.flatMap_cons]
    exact List.append_left_lt ih

/-- The bytes of texts are in the order of the texts. -/
lemma toUTF8_lt {text text' : String} (h : text < text') :
    text.toUTF8.data.toList < text'.toUTF8.data.toList := by
  rw [toList_toUTF8, toList_toUTF8]
  exact flatMap_encodeChar_lt h

end ConfigPack.Utf8
