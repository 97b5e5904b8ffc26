import ConfigPack.Archive.CodePage
import ConfigPack.Bytes
import ConfigPack.Path
import ConfigPack.Text.Utf8

/-!
# Members of archives

An archive ends with a directory that describes its members.  `directory` finds and reads it.  The
archive may stand behind other data, and other data may stand behind it.

The directory is read in its plain form: numbers of members, sizes and places have the 16 and 32
bits of the original records, so an archive that keeps them in zip64 records is read as if those
records were not there.  Extra fields are only checked to be fields; one with a Unicode path does
not replace the name that stands in the description.
-/

namespace ConfigPack.Archive

/-- Why an archive cannot be read. -/
inductive Flaw where
  /-- It has no directory, or a member cannot be opened. -/
  | malformed
  /-- The content of a member is damaged. -/
  | unreadable (name : String)
  /-- The name of a member leads out of the directory it is extracted to. -/
  | escapes (name : String)
deriving DecidableEq, Repr

/-- A member as the directory describes it. -/
structure Member where
  name : String
  encrypted : Bool
  /-- The number of the method of compression.  Only members with 0 (as it is) and 8 (deflated) can
  be opened. -/
  method : Nat
  checksum : Nat
  /-- The number of bytes in the archive. -/
  size : Nat
  /-- Where the member begins. -/
  start : Nat
deriving DecidableEq, Repr

/-- Whether a member stands for a directory. -/
def Member.isDirectory (m : Member) : Bool :=
  m.name.toList.getLast? == some '/' || m.name.toList.getLast? == some '\\'

/-- Whether a name leads to a place inside the directory it is taken in. -/
def isSafeName (name : String) : Bool :=
  !name.isEmpty && !name.toList.contains '\\' && Path.staysInside name

/-- The mark in front of a member. -/
def memberMark : Nat := 0x04034b50

/-- The mark in front of a description in the directory. -/
def descriptionMark : Nat := 0x02014b50

/-- The mark of the record behind the directory. -/
def endMark : Nat := 0x06054b50

/-- The flag of names in UTF-8. -/
def utf8Flag : Nat := 0x0800

/-- The name that bytes stand for. -/
def nameOf (flags : Nat) (bytes : ByteArray) : String :=
  if flags &&& utf8Flag ≠ 0 then Utf8.decodeLossy bytes else codePageText bytes

/-- Whether data is a sequence of fields, each with its kind and its length in front. -/
def areFields (data : ByteArray) : (fuel : Nat) → (index : Nat) → Bool
  | 0, _ => false
  | fuel + 1, index =>
    if index = data.size then true
    else
      match Bytes.number? data (index + 2) 2 with
      | some size => index + 4 + size ≤ data.size && areFields data fuel (index + 4 + size)
      | none => false

/-- The member that is described at an index, and where the next description begins; `shift` is
where the archive begins. -/
def describedAt (data : ByteArray) (shift index : Nat) : Option (Member × Nat) := do
  let field (offset width : Nat) := Bytes.number? data (index + offset) width
  guard ((← field 0 4) = descriptionMark)
  let flags ← field 8 2
  let nameSize ← field 28 2
  let extraSize ← field 30 2
  let commentSize ← field 32 2
  let name ← Bytes.slice? data (index + 46) nameSize
  let extra ← Bytes.slice? data (index + 46 + nameSize) extraSize
  guard (areFields extra (extraSize + 1) 0)
  let next := index + 46 + nameSize + extraSize + commentSize
  guard (next ≤ data.size)
  return (⟨nameOf flags name, flags % 2 = 1, ← field 10 2, ← field 16 4, ← field 20 4,
    (← field 42 4) + shift⟩, next)

/-- The members that are described one after the other from an index on. -/
def described (data : ByteArray) (shift : Nat) : (count index : Nat) → Option (List Member)
  | 0, _ => some []
  | count + 1, index => do
    let (m, next) ← describedAt data shift index
    return m :: (← described data shift count next)

/-- The first of `count` indices from one on at which a description may begin. -/
def firstMark? (data : ByteArray) : (count index : Nat) → Option Nat
  | 0, _ => none
  | count + 1, index =>
    if Bytes.number? data index 4 = some descriptionMark then some index
    else firstMark? data count (index + 1)

/-- The members of the directory whose end record begins at an index. -/
def directoryBefore (data : ByteArray) (index : Nat) : Option (List Member) := do
  let field (offset width : Nat) := Bytes.number? data (index + offset) width
  guard ((← field 0 4) = endMark)
  let commentSize ← field 20 2
  guard (index + 22 + commentSize ≤ data.size)
  if (← field 10 2) = 0 then return []
  guard ((← field 4 2) = (← field 6 2))
  let start ← field 16 4
  let first ← firstMark? data (index - start) start
  described data (first - start) (← field 8 2) first

/-- The members of the last directory whose end record begins in front of an index. -/
def lastDirectory (data : ByteArray) : (index : Nat) → Option (List Member)
  | 0 => none
  | index + 1 =>
    match directoryBefore data index with
    | some members => some members
    | none => lastDirectory data index

/-- Put a member into a list; one with the same name gives up its place to it. -/
def place (m : Member) : List Member → List Member
  | [] => [m]
  | first :: rest => if first.name = m.name then m :: rest else first :: place m rest

/-- The members of an archive; of two with one name the later counts. -/
def directory (data : ByteArray) : Except Flaw (List Member) :=
  match lastDirectory data data.size with
  | some members => .ok (members.foldl (fun found m => place m found) [])
  | none => .error .malformed

end ConfigPack.Archive
