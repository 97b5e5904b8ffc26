import ConfigPack.Digest.Sha256
import ConfigPack.Text.CodePoint

/-!
# Checksums

The text of a digest in one of two encodings, and the comparison of data with an expected text.  A
text of 64 hexadecimal digits is compared as such, in either case; every other text as base 64,
where equals signs at its end are passed over.
-/

namespace ConfigPack

/-- How a digest is written. -/
inductive DigestEncoding where
  /-- Base 64 in the alphabet for addresses, without padding. -/
  | base64url
  /-- Small hexadecimal digits. -/
  | hex
deriving DecidableEq, Repr

namespace DigestEncoding

/-- Two hexadecimal digits of a byte. -/
def hexByte (b : UInt8) : List Char :=
  [Nat.digitChar (b.toNat / 16), Nat.digitChar (b.toNat % 16)]

/-- The digits of base 64. -/
def base64Digits : List Char :=
  "ABCDEFGHIJKLMNOPQRSTUVWXYZabcdefghijklmnopqrstuvwxyz0123456789-_".toList

/-- One digit of base 64. -/
def base64Digit (n : Nat) : Char := base64Digits.getD (n % 64) 'A'

/-- Bytes in base 64, three at a time. -/
def base64 : List UInt8 → List Char
  | a :: b :: c :: rest =>
    let n := (a.toNat * 256 + b.toNat) * 256 + c.toNat
    base64Digit (n / 262144) :: base64Digit (n / 4096) :: base64Digit (n / 64) :: base64Digit n ::
      base64 rest
  | [a, b] =>
    let n := (a.toNat * 256 + b.toNat) * 4
    [base64Digit (n / 4096), base64Digit (n / 64), base64Digit n]
  | [a] =>
    let n := a.toNat * 16
    [base64Digit (n / 64), base64Digit n]
  | [] => []

/-- The text of bytes. -/
def encode (encoding : DigestEncoding) (data : ByteArray) : String :=
  match encoding with
  | base64url => String.ofList (base64 data.data.toList)
  | hex => String.ofList (data.data.toList.flatMap hexByte)

end DigestEncoding

/-- The text of the digest of data. -/
def checksum (encoding : DigestEncoding) (data : ByteArray) : String :=
  encoding.encode (Sha256.digest data)

/-- Whether a character is a hexadecimal digit. -/
def isHexDigit (c : Char) : Bool := c.isDigit || ('a' ≤ c && c ≤ 'f') || ('A' ≤ c && c ≤ 'F')

/-- Data whose checksum is not the expected one. -/
structure ChecksumMismatch where
  expected : String
  actual : String
deriving DecidableEq, Repr

/-- The words for a mismatch. -/
def ChecksumMismatch.message (m : ChecksumMismatch) : String :=
  s!"checksum mismatch: expected {m.expected}, got {m.actual}"

/-- A text without the equals signs at its end. -/
def dropPadding (text : String) : String :=
  String.ofList (text.toList.reverse.dropWhile (· = '=')).reverse

/-- The encoding in which a checksum is given. -/
def DigestEncoding.of (expected : String) : DigestEncoding :=
  if expected.length = 64 ∧ expected.toList.all isHexDigit then .hex else .base64url

/-- Compare data with an expected checksum; blanks around it do not count. -/
def verifyChecksum (data : ByteArray) (expected : String) : Except ChecksumMismatch Unit :=
  let wanted := Text.trim expected
  let encoding := DigestEncoding.of wanted
  let actual := checksum encoding data
  let agrees := match encoding with
    | .hex => actual == Text.lowerAscii wanted
    | .base64url => actual == dropPadding wanted
  if agrees then .ok () else .error ⟨wanted, actual⟩

end ConfigPack
