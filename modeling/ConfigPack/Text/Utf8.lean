/-!
# Decoding text

Bytes are text when they are well-formed UTF-8.  Where they are not, `Utf8.Fault` says how far they
are and how many bytes of the bad sequence could still have begun a character; that number also
decides how much one replacement character stands for.
-/

namespace ConfigPack

namespace Utf8

/-- Where decoding stops: `index` bytes are well-formed, and `length` bytes after them begin no
character, or the input ends inside a character when there is no length. -/
structure Fault where
  /-- The number of well-formed bytes before the fault. -/
  index : Nat
  /-- The bytes of the bad sequence, none when the input ends too early. -/
  length : Option Nat
deriving DecidableEq, Repr

/-- The words for a fault. -/
def Fault.message (fault : Fault) : String :=
  match fault.length with
  | some n => s!"invalid utf-8 sequence of {n} bytes from index {fault.index}"
  | none => s!"incomplete utf-8 byte sequence from index {fault.index}"

/-- What the next bytes hold. -/
inductive Step where
  /-- A character and the number of its bytes. -/
  | char (c : Char) (size : Nat)
  /-- No character begins; the length is that of a `Fault`. -/
  | bad (length : Option Nat)

/-- Whether a byte continues a character. -/
def isContinuation (b : UInt8) : Bool := 0x80 ≤ b && b ≤ 0xbf

/-- Whether the second byte fits the first: no overlong form, no surrogate, nothing above the last
code point. -/
def secondFits (first second : UInt8) : Bool :=
  match first with
  | 0xe0 => 0xa0 ≤ second && second ≤ 0xbf
  | 0xed => 0x80 ≤ second && second ≤ 0x9f
  | 0xf0 => 0x90 ≤ second && second ≤ 0xbf
  | 0xf4 => 0x80 ≤ second && second ≤ 0x8f
  | _ => isContinuation second

/-- The payload of a continuation byte. -/
def low (b : UInt8) : Nat := b.toNat % 64

/-- Read one character from the front of bytes that are not empty. -/
def step (first : UInt8) (rest : List UInt8) : Step :=
  if first < 0x80 then .char (Char.ofNat first.toNat) 1
  else if first < 0xc2 then .bad (some 1)
  else if first < 0xe0 then
    match rest with
    | [] => .bad none
    | b :: _ =>
      if isContinuation b then .char (Char.ofNat (first.toNat % 32 * 64 + low b)) 2 else .bad (some 1)
  else if first < 0xf0 then
    match rest with
    | [] => .bad none
    | b :: rest =>
      if secondFits first b then
        match rest with
        | [] => .bad none
        | c :: _ =>
          if isContinuation c then
            .char (Char.ofNat (first.toNat % 16 * 4096 + low b * 64 + low c)) 3
          else .bad (some 2)
      else .bad (some 1)
  else if first < 0xf5 then
    match rest with
    | [] => .bad none
    | b :: rest =>
      if secondFits first b then
        match rest with
        | [] => .bad none
        | c :: rest =>
          if isContinuation c then
            match rest with
            | [] => .bad none
            | d :: _ =>
              if isContinuation d then
                .char (Char.ofNat (first.toNat % 8 * 262144 + low b * 4096 + low c * 64 + low d)) 4
              else .bad (some 3)
          else .bad (some 2)
      else .bad (some 1)
  else .bad (some 1)

/-- The first fault in bytes that start at `index`; the first `skip` of them belong to a character
already read. -/
def faultFrom (index skip : Nat) : List UInt8 → Option Fault
  | [] => none
  | b :: rest =>
    match skip with
    | skip + 1 => faultFrom (index + 1) skip rest
    | 0 =>
      match step b rest with
      | .char _ size => faultFrom (index + 1) (size - 1) rest
      | .bad length => some ⟨index, length⟩

/-- The text of well-formed bytes, or the first fault. -/
def decode (bytes : ByteArray) : Except Fault String :=
  match String.fromUTF8? bytes with
  | some text => .ok text
  | none => .error ((faultFrom 0 0 bytes.data.toList).getD ⟨0, none⟩)

/-- Decode with one replacement character for each bad sequence; the first `skip` bytes belong to a
sequence already read. -/
def lossyFrom (skip : Nat) : List UInt8 → String → String
  | [], out => out
  | b :: rest, out =>
    match skip with
    | skip + 1 => lossyFrom skip rest out
    | 0 =>
      match step b rest with
      | .char c size => lossyFrom (size - 1) rest (out.push c)
      | .bad (some length) => lossyFrom (length - 1) rest (out.push '\ufffd')
      | .bad none => out.push '\ufffd'

/-- The text of any bytes, faults replaced. -/
def decodeLossy (bytes : ByteArray) : String :=
  match String.fromUTF8? bytes with
  | some text => text
  | none => lossyFrom 0 bytes.data.toList ""

end Utf8

end ConfigPack
