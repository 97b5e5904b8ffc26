import ConfigPack.Bytes
import Mathlib.Algebra.Ring.Nat
import Mathlib.Data.List.Range
import Mathlib.Tactic.Common

/-!
# Bytes at an index

Numbers and slices of data are known from the bytes that stand at an index (`At`).  A number that is
written is read back when it fits its width (`At.number?`).
-/

namespace ConfigPack.Bytes

variable {data : ByteArray} {index : Nat} {bytes front back : List UInt8}

/-- Bytes stand in data from an index on. -/
def At (data : ByteArray) (index : Nat) (bytes : List UInt8) : Prop :=
  ∃ before after, data.data.toList = before ++ (bytes ++ after) ∧ before.length = index

/-- All bytes of some data stand at its beginning. -/
lemma At.whole (data : ByteArray) : At data 0 data.data.toList :=
  ⟨[], [], by simp, rfl⟩

/-- Bytes stand one after the other. -/
lemma at_append :
    At data index (front ++ back) ↔ At data index front ∧ At data (index + front.length) back := by
  constructor
  · rintro ⟨before, after, hdata, hindex⟩
    refine ⟨⟨before, back ++ after, by rw [hdata, List.append_assoc], hindex⟩,
      before ++ front, after, ?_, by rw [List.length_append, hindex]⟩
    rw [hdata, List.append_assoc, List.append_assoc]
  · rintro ⟨⟨before, after, hdata, hindex⟩, before', after', hdata', hindex'⟩
    have hsplit : (before ++ front) ++ after = before' ++ (back ++ after') := by
      rw [List.append_assoc, ← hdata, hdata']
    have hlength : (before ++ front).length = before'.length := by
      rw [List.length_append, hindex, hindex']
    obtain ⟨_, rfl⟩ := List.append_inj hsplit hlength
    exact ⟨before, after', by rw [hdata, List.append_assoc], hindex⟩

/-- Bytes stand within the data. -/
lemma At.size_le (h : At data index bytes) : index + bytes.length ≤ data.size := by
  obtain ⟨before, after, hdata, hindex⟩ := h
  have hlength : data.size = data.data.toList.length := by simp
  rw [hlength, hdata, List.length_append, List.length_append, hindex]
  omega

/-- Each of them is found at its index. -/
lemma At.byteAt (h : At data index bytes) {i : Nat} (hi : i < bytes.length) :
    byteAt data (index + i) = bytes[i] := by
  have hsize := h.size_le
  obtain ⟨before, after, hdata, hindex⟩ := h
  have hin : index + i < data.size := by omega
  rw [Bytes.byteAt, dif_pos hin, ByteArray.getElem_eq_getElem_data, ← Array.getElem_toList]
  simp only [hdata]
  rw [List.getElem_append_right (by omega), List.getElem_append_left (by omega)]
  simp only [hindex, Nat.add_sub_cancel_left]

@[simp] lemma length_littleEndian (width n : Nat) : (littleEndian width n).length = width := by
  simp [littleEndian]

@[simp] lemma length_bigEndian (width n : Nat) : (bigEndian width n).length = width := by
  simp [bigEndian]

/-- The lowest byte of a number comes first. -/
lemma littleEndian_succ (width n : Nat) :
    littleEndian (width + 1) n = UInt8.ofNat n :: littleEndian width (n / 256) := by
  simp only [littleEndian, List.range_succ_eq_map, List.map_cons, List.map_map]
  congr 1
  · simp
  · refine List.map_congr_left fun i _ => ?_
    have hpow : Nat.pow 256 (i + 1) = 256 * Nat.pow 256 i := Nat.pow_succ'
    simp only [Function.comp, Nat.succ_eq_add_one, hpow, Nat.div_div_eq_div_mul]

/-- The number of bytes, the lowest first. -/
def valueOf (bytes : List UInt8) : Nat := bytes.foldr (fun b n => n * 256 + b.toNat) 0

/-- A number that fits is read back from its bytes. -/
lemma valueOf_littleEndian :
    ∀ {width n : Nat}, n < 256 ^ width → valueOf (littleEndian width n) = n
  | 0, n, h => by
    have : n = 0 := by simpa using h
    simp [this, valueOf, littleEndian]
  | width + 1, n, h => by
    have hrest : n / 256 < 256 ^ width := by
      rw [Nat.div_lt_iff_lt_mul (by decide), ← Nat.pow_succ]
      exact h
    have hlow : (UInt8.ofNat n).toNat = n % 256 := by simp
    rw [littleEndian_succ]
    change valueOf (littleEndian width (n / 256)) * 256 + (UInt8.ofNat n).toNat = n
    rw [valueOf_littleEndian hrest, hlow]
    omega

/-- The number of bytes that stand at an index. -/
lemma At.number?_valueOf (h : At data index bytes) :
    number? data index bytes.length = some (valueOf bytes) := by
  have hbytes : bytes = (List.range bytes.length).map fun i => Bytes.byteAt data (index + i) := by
    refine List.ext_getElem (by simp) fun i hi _ => ?_
    simp [h.byteAt hi]
  rw [number?, if_pos h.size_le]
  conv_rhs => rw [hbytes, valueOf, List.foldr_map]

/-- A number that is written is read back when it fits its width. -/
lemma At.number? {width n : Nat} (h : At data index (littleEndian width n)) (hn : n < 256 ^ width) :
    number? data index width = some n := by
  have hnumber := h.number?_valueOf
  rwa [length_littleEndian, valueOf_littleEndian hn] at hnumber

/-- Data that stands somewhere is cut out there. -/
lemma At.extract {slice : ByteArray} (h : At data index slice.data.toList) :
    data.extract index (index + slice.size) = slice := by
  obtain ⟨before, after, hdata, hindex⟩ := h
  have hlength : slice.size = slice.data.toList.length := by simp
  refine ByteArray.ext (Array.toList_inj.1 ?_)
  rw [ByteArray.data_extract, Array.toList_extract, List.extract_eq_take_drop, hdata, ← hindex,
    List.drop_left, Nat.add_sub_cancel_left, hlength, List.take_left]

/-- The same, where the bounds are checked. -/
lemma At.slice? {slice : ByteArray} (h : At data index slice.data.toList) :
    slice? data index slice.size = some slice := by
  have hsize : index + slice.size ≤ data.size := by
    have hle := h.size_le
    simpa using hle
  rw [Bytes.slice?, if_pos hsize, h.extract]

/-- Behind the end of data there is no number. -/
lemma number?_eq_none {width : Nat} (h : data.size < index + width) :
    number? data index width = none := by
  rw [number?, if_neg (by omega)]

end ConfigPack.Bytes
