/-!
# Bytes

Reading and writing numbers inside bytes.
-/

namespace ConfigPack.Bytes

/-- A byte of data, zero behind its end. -/
def byteAt (data : ByteArray) (index : Nat) : UInt8 :=
  if h : index < data.size then data[index] else 0

/-- The number of `width` bytes from an index on, the lowest first; none when data ends before. -/
def number? (data : ByteArray) (index width : Nat) : Option Nat :=
  if index + width ≤ data.size then
    some ((List.range width).foldr (fun i n => n * 256 + (byteAt data (index + i)).toNat) 0)
  else none

/-- The `width` lowest bytes of a number, the lowest first. -/
def littleEndian (width n : Nat) : List UInt8 :=
  (List.range width).map fun i => UInt8.ofNat (n / Nat.pow 256 i)

/-- The `width` lowest bytes of a number, the highest first. -/
def bigEndian (width n : Nat) : List UInt8 :=
  (List.range width).map fun i => UInt8.ofNat (n / Nat.pow 256 (width - 1 - i))

/-- `size` bytes from an index on; none when data ends before. -/
def slice? (data : ByteArray) (index size : Nat) : Option ByteArray :=
  if index + size ≤ data.size then some (data.extract index (index + size)) else none

end ConfigPack.Bytes
