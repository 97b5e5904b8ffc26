import ConfigPack.Archive.Crc32
import ConfigPack.Archive.Inflate
import ConfigPack.Archive.Member
import ConfigPack.Dict

/-!
# Entries of archives

The entries of an archive are its files, each with its name and content.  `entries` reads them and
`ofEntries` writes an archive that holds them.

Two methods of compression are known, 0 for bytes as they are and 8 for deflated ones; a member with
any other method cannot be opened.  What is written is stored as it is.
-/

namespace ConfigPack.Archive

/-- The bytes of a member as they are stored.  Those behind the end of the archive are missing. -/
def Member.stored (m : Member) (data : ByteArray) : Except Flaw ByteArray := do
  if m.encrypted then throw .malformed
  if Bytes.number? data m.start 4 ≠ some memberMark then throw .malformed
  match Bytes.number? data (m.start + 26) 2, Bytes.number? data (m.start + 28) 2 with
  | some nameSize, some extraSize =>
    let start := m.start + 30 + nameSize + extraSize
    return data.extract start (start + m.size)
  | _, _ => throw .malformed

/-- The bytes that stored bytes stand for under a method; none when they are damaged. -/
def unpacked? (method : Nat) (bytes : ByteArray) : Except Flaw (Option ByteArray) :=
  match method with
  | 0 => .ok (some bytes)
  | 8 => .ok (Inflate.inflate bytes)
  | _ => .error .malformed

/-- The content of a member. -/
def Member.content (m : Member) (data : ByteArray) : Except Flaw ByteArray := do
  match ← unpacked? m.method (← m.stored data) with
  | some content =>
    if Crc32.checksum content = m.checksum then return content else throw (.unreadable m.name)
  | none => throw (.unreadable m.name)

/-- Check that a member can be opened, whatever its content is. -/
def Member.checkOpens (m : Member) (data : ByteArray) : Except Flaw Unit := do
  let _ ← m.stored data
  if m.method = 0 || m.method = 8 then return () else throw .malformed

/-- Add the entry of a member to those before it. -/
def addEntry (data : ByteArray) (found : Dict ByteArray) (m : Member) :
    Except Flaw (Dict ByteArray) := do
  m.checkOpens data
  if m.isDirectory then return found
  if Path.hasNul m.name || !isSafeName m.name then throw (.escapes m.name)
  return found.insert m.name (← m.content data)

/-- The entries of an archive. -/
def entries (data : ByteArray) : Except Flaw (Dict ByteArray) := do
  (← directory data).foldlM (addEntry data) Dict.empty

/-- The content of the entry of a name, without a look at the others. -/
def entry? (data : ByteArray) (name : String) : Except Flaw (Option ByteArray) := do
  match (← directory data).find? fun m => m.name = name with
  | some m => return some (← m.content data)
  | none => return none

/-! ## Writing -/

/-- The flags of a name. -/
def flagsOf (name : String) : Nat :=
  if name.toList.all fun c => c.toNat < 128 then 0 else utf8Flag

/-- The fields that a member and its description share: version, flags, method, time, checksum, both
sizes, and the lengths of the name and of the extra fields. -/
def sharedFields (name : String) (content : ByteArray) : List UInt8 :=
  let size := Bytes.littleEndian 4 content.size
  Bytes.littleEndian 2 20 ++ Bytes.littleEndian 2 (flagsOf name) ++ Bytes.littleEndian 2 0 ++
    Bytes.littleEndian 4 0x00210000 ++ Bytes.littleEndian 4 (Crc32.checksum content) ++
    size ++ size ++
    Bytes.littleEndian 2 name.utf8ByteSize ++ Bytes.littleEndian 2 0

/-- A member with its content as it is. -/
def writeMember (name : String) (content : ByteArray) : ByteArray :=
  (Bytes.littleEndian 4 memberMark ++ sharedFields name content).toByteArray ++ name.toUTF8 ++ content

/-- The description of a member that begins at an index. -/
def writeDescription (name : String) (content : ByteArray) (start : Nat) : ByteArray :=
  (Bytes.littleEndian 4 descriptionMark ++ Bytes.littleEndian 2 20 ++ sharedFields name content ++
    Bytes.littleEndian 2 0 ++ Bytes.littleEndian 2 0 ++ Bytes.littleEndian 2 0 ++
    Bytes.littleEndian 4 0 ++ Bytes.littleEndian 4 start).toByteArray ++ name.toUTF8

/-- The record behind a directory. -/
def writeEnd (count size start : Nat) : ByteArray :=
  (Bytes.littleEndian 4 endMark ++ Bytes.littleEndian 4 0 ++ Bytes.littleEndian 2 count ++
    Bytes.littleEndian 2 count ++ Bytes.littleEndian 4 size ++ Bytes.littleEndian 4 start ++
    Bytes.littleEndian 2 0).toByteArray

/-- The archive of entries, in their order. -/
def ofEntries (d : Dict ByteArray) : ByteArray :=
  let (members, directory) := d.entries.foldl (fun (members, directory) (name, content) =>
    (members ++ writeMember name content,
      directory ++ writeDescription name content members.size))
    (ByteArray.empty, ByteArray.empty)
  members ++ directory ++ writeEnd d.size directory.size members.size

end ConfigPack.Archive
