import ConfigPack.Path
import ConfigPack.Text.Utf8

/-!
# Names of files

The name of a file is bytes, none of them zero or a slash, and mostly those of a text.  A name whose
bytes are no text is held as a zero character, which stands in no text that is a name, and behind it
each byte as the character of that number.  Such names are found in directories; no path that is
given as a text has one.
-/

namespace ConfigPack.FileName

/-- The mark of a name whose bytes are no text. -/
def mark : Char := '\x00'

/-- Whether the bytes of a name are a text. -/
def isText (name : String) : Bool := name.toList.head? != some mark

/-- The name with some bytes. -/
def ofBytes (bytes : ByteArray) : String :=
  match Utf8.decode bytes with
  | .ok text => text
  | .error _ => String.ofList (mark :: bytes.data.toList.map fun b => Char.ofNat b.toNat)

/-- The bytes of a name. -/
def bytes (name : String) : ByteArray :=
  if isText name then name.toUTF8
  else ((name.toList.drop 1).map fun c => UInt8.ofNat c.toNat).toByteArray

/-- The number of bytes of a name. -/
def size (name : String) : Nat :=
  if isText name then name.utf8ByteSize else name.toList.length - 1

/-- Whether a name is one of some bytes without zero. -/
def isValid (name : String) : Bool :=
  if isText name then !Path.hasNul name
  else ofBytes (bytes name) == name && !(bytes name).data.contains 0

/-- The text of a name, with a replacement character for each sequence of bytes that is no text. -/
def lossy (name : String) : String :=
  if isText name then name else Utf8.decodeLossy (bytes name)

/-- The text of a path of names. -/
def lossyPath (path : String) : String :=
  if Path.hasNul path then "/".intercalate ((Path.segments path).map lossy) else path

/-- The number of bytes of names with a slash in front of each. -/
def slashedSize (names : List String) : Nat := names.foldr (fun name n => size name + 1 + n) 0

/-- The number of bytes of a path of names. -/
def pathSize (path : String) : Nat :=
  if Path.hasNul path then slashedSize (Path.segments path) - 1 else path.utf8ByteSize

end ConfigPack.FileName
