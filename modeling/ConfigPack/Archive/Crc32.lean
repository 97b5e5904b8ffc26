import ConfigPack.Bytes

/-!
# Cyclic redundancy check

The checksum of 32 bits by which archives guard the content of their members.
-/

namespace ConfigPack.Crc32

/-- The remainder after one more bit. -/
def shift (c : UInt32) : UInt32 :=
  if c &&& 1 = 1 then (c >>> 1) ^^^ 0xedb88320 else c >>> 1

/-- The remainder of a byte. -/
def remainder (byte : UInt32) : UInt32 := Nat.fold 8 (fun _ _ c => shift c) byte

/-- The remainders of all bytes. -/
def table : Array UInt32 := (Array.range 256).map fun i => remainder (UInt32.ofNat i)

/-- The remainder after one more byte. -/
def update (c : UInt32) (byte : UInt8) : UInt32 :=
  table.getD ((c ^^^ byte.toUInt32) &&& 0xff).toNat 0 ^^^ (c >>> 8)

/-- The checksum of data. -/
def checksum (data : ByteArray) : Nat :=
  (Nat.fold data.size (fun i _ c => update c (Bytes.byteAt data i)) 0xffffffff ^^^ 0xffffffff).toNat

end ConfigPack.Crc32
