import ConfigPack.Digest.Checksum
import Mathlib.Data.List.Nodup
import Mathlib.Tactic.Common

/-!
# Encodings of digests

Both encodings write different bytes as different texts (`encode_injective`).  In hexadecimal every
byte has two digits of its own.  In base 64 the digits give the bytes back, three of them from four
digits and one or two from what is left over at the end (`ofBase64_base64`).
-/

namespace ConfigPack.DigestEncoding

/-! ## Hexadecimal -/

/-- What is true of the sixteen digits is true of all characters of a hexadecimal text. -/
lemma forall_mem_hex {P : Char → Prop} (h : ∀ n < 16, P (Nat.digitChar n)) {bytes : List UInt8} :
    ∀ c ∈ bytes.flatMap hexByte, P c := by
  intro c hc
  obtain ⟨b, _, hc⟩ := List.mem_flatMap.1 hc
  have hb := b.toNat_lt
  simp only [hexByte, List.mem_cons, List.not_mem_nil, or_false] at hc
  rcases hc with rfl | rfl
  · exact h _ (by omega)
  · exact h _ (by omega)

/-- Each byte has two digits. -/
lemma length_hex (bytes : List UInt8) : (bytes.flatMap hexByte).length = 2 * bytes.length := by
  induction bytes with
  | nil => rfl
  | cons b bytes ih =>
    rw [List.flatMap_cons, List.length_append, ih, hexByte, List.length_cons]
    simp only [List.length_cons, List.length_nil]
    omega

/-- Different digits are written differently. -/
lemma digitChar_inj : ∀ {m : Nat}, m < 16 → ∀ {n : Nat}, n < 16 →
    Nat.digitChar m = Nat.digitChar n → m = n := by
  decide

/-- Different bytes are written differently. -/
lemma hexByte_inj {b c : UInt8} (h : hexByte b = hexByte c) : b = c := by
  have hb := b.toNat_lt
  have hc := c.toNat_lt
  simp only [hexByte, List.cons.injEq, and_true] at h
  have hhigh := digitChar_inj (by omega) (by omega) h.1
  have hlow := digitChar_inj (by omega) (by omega) h.2
  apply UInt8.toNat_inj.1
  omega

/-- So are different sequences of bytes. -/
lemma hex_inj : ∀ {bytes bytes' : List UInt8},
    bytes.flatMap hexByte = bytes'.flatMap hexByte → bytes = bytes'
  | [], [], _ => rfl
  | [], _ :: _, h => by cases h
  | _ :: _, [], h => by cases h
  | b :: bytes, b' :: bytes', h => by
    rw [List.flatMap_cons, List.flatMap_cons] at h
    obtain ⟨hfirst, hrest⟩ := List.append_inj h rfl
    rw [hexByte_inj hfirst, hex_inj hrest]

/-! ## Base 64 -/

/-- A digit is one of the alphabet. -/
lemma base64Digit_mem (n : Nat) : base64Digit n ∈ base64Digits := by
  have hlt : n % 64 < base64Digits.length := Nat.mod_lt n (by decide)
  rw [base64Digit, List.getD_eq_getElem?_getD, List.getElem?_eq_getElem hlt, Option.getD_some]
  exact List.getElem_mem hlt

/-- The number that a digit stands for. -/
def base64Value (c : Char) : Nat := base64Digits.idxOf c

/-- A digit is read back as its value. -/
lemma base64Value_digit (n : Nat) : base64Value (base64Digit n) = n % 64 := by
  have hnodup : base64Digits.Nodup := by decide
  have hlt : n % 64 < base64Digits.length := Nat.mod_lt n (by decide)
  rw [base64Digit, List.getD_eq_getElem?_getD, List.getElem?_eq_getElem hlt, Option.getD_some]
  exact hnodup.idxOf_getElem _ hlt

/-- All characters of a text in base 64 are digits. -/
lemma mem_base64 {c : Char} : ∀ {bytes : List UInt8}, c ∈ base64 bytes → c ∈ base64Digits
  | [], h => by cases h
  | [a], h => by
    simp only [base64, List.mem_cons, List.not_mem_nil, or_false] at h
    rcases h with rfl | rfl <;> exact base64Digit_mem _
  | [a, b], h => by
    simp only [base64, List.mem_cons, List.not_mem_nil, or_false] at h
    rcases h with rfl | rfl | rfl <;> exact base64Digit_mem _
  | a :: b :: d :: rest, h => by
    simp only [base64, List.mem_cons] at h
    rcases h with rfl | rfl | rfl | rfl | h
    iterate 4 exact base64Digit_mem _
    exact mem_base64 h

/-- Three bytes have four digits; of one byte that is left over there are two, of two bytes
three. -/
lemma length_base64 : ∀ bytes : List UInt8, (base64 bytes).length = (4 * bytes.length + 2) / 3
  | [] => rfl
  | [_] => by simp [base64]
  | [_, _] => by simp [base64]
  | a :: b :: c :: rest => by
    have ih := length_base64 rest
    simp only [base64, List.length_cons, ih]
    omega

/-- The bytes of a text in base 64, four digits at a time. -/
def ofBase64 : List Char → List UInt8
  | p :: q :: r :: s :: rest =>
    let n := ((base64Value p * 64 + base64Value q) * 64 + base64Value r) * 64 + base64Value s
    UInt8.ofNat (n / 65536) :: UInt8.ofNat (n / 256) :: UInt8.ofNat n :: ofBase64 rest
  | [p, q, r] =>
    let n := ((base64Value p * 64 + base64Value q) * 64 + base64Value r) / 4
    [UInt8.ofNat (n / 256), UInt8.ofNat n]
  | [p, q] => [UInt8.ofNat ((base64Value p * 64 + base64Value q) / 16)]
  | _ => []

/-- A byte is told by its number up to multiples of 256. -/
lemma ofNat_eq {n : Nat} {b : UInt8} (h : n % 256 = b.toNat) : UInt8.ofNat n = b :=
  UInt8.toNat_inj.1 (by simpa using h)

/-- The bytes are read back from their digits. -/
lemma ofBase64_base64 : ∀ bytes : List UInt8, ofBase64 (base64 bytes) = bytes
  | [] => rfl
  | [a] => by
    have ha := a.toNat_lt
    simp only [base64, ofBase64, base64Value_digit]
    rw [ofNat_eq (b := a) (by omega)]
  | [a, b] => by
    have ha := a.toNat_lt
    have hb := b.toNat_lt
    simp only [base64, ofBase64, base64Value_digit]
    rw [ofNat_eq (b := a) (by omega), ofNat_eq (b := b) (by omega)]
  | a :: b :: c :: rest => by
    have ha := a.toNat_lt
    have hb := b.toNat_lt
    have hc := c.toNat_lt
    simp only [base64, ofBase64, base64Value_digit]
    rw [ofNat_eq (b := a) (by omega), ofNat_eq (b := b) (by omega), ofNat_eq (b := c) (by omega),
      ofBase64_base64 rest]

/-- Different bytes have different spellings. -/
lemma base64_inj {bytes bytes' : List UInt8} (h : base64 bytes = base64 bytes') :
    bytes = bytes' := by
  rw [← ofBase64_base64 bytes, h, ofBase64_base64]

/-- Different bytes have different texts. -/
lemma encode_injective (encoding : DigestEncoding) {data data' : ByteArray}
    (h : encoding.encode data = encoding.encode data') : data = data' := by
  refine ByteArray.ext (Array.toList_inj.1 ?_)
  cases encoding with
  | hex => exact hex_inj (String.ofList_injective h)
  | base64url => exact base64_inj (String.ofList_injective h)

end ConfigPack.DigestEncoding
