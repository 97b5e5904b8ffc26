import ConfigPack.Text.CodePoint

/-!
# Paths

A path is a text whose parts stand between slashes.  Repeated slashes, a slash at the end and a
single dot behind the first part name nothing of their own, so different texts may name one place;
`Path.components` is the common form.  Nothing here looks at a file system.
-/

namespace ConfigPack.Path

/-- A part of a path. -/
inductive Component where
  /-- The slash an absolute path begins with. -/
  | root
  /-- A single dot a path begins with. -/
  | current
  /-- Two dots. -/
  | parent
  /-- A name. -/
  | name (text : String)
deriving DecidableEq, Repr

/-- Split characters at slashes; the part that is being read comes last, reversed. -/
def splitFrom (part : List Char) : List Char → List String
  | [] => [String.ofList part.reverse]
  | '/' :: rest => String.ofList part.reverse :: splitFrom [] rest
  | c :: rest => splitFrom (c :: part) rest

/-- The texts between the slashes of a path, empty ones included. -/
def segments (path : String) : List String := splitFrom [] path.toList

/-- Whether a path begins with a slash. -/
def isAbsolute (path : String) : Bool := path.toList.head? == some '/'

/-- Whether a path has a zero character, which stands in no name. -/
def hasNul (path : String) : Bool := path.toList.contains '\x00'

/-- Whether a segment names nothing of its own. -/
def isTrivial (segment : String) : Bool := segment == "" || segment == "."

/-- The component of a segment that is not trivial. -/
def Component.ofSegment (segment : String) : Component :=
  if segment = ".." then .parent else .name segment

/-- The parts of a path that name something. -/
def components (path : String) : List Component :=
  let parts := segments path
  let body := (parts.filter fun s => !isTrivial s).map Component.ofSegment
  if isAbsolute path then .root :: body
  else if parts.head? = some "." then .current :: body
  else body

/-- Whether a component stays inside the directory it is taken in. -/
def Component.staysInside : Component → Bool
  | .name _ => true
  | .current => true
  | .root => false
  | .parent => false

/-- Whether every component stays inside. -/
def staysInside (path : String) : Bool := (components path).all Component.staysInside

/-- How many segments at the front are kept when trivial ones are dropped from the end: the root,
or the dot a relative path begins with. -/
def keptSegments (path : String) : Nat :=
  if isAbsolute path then 1 else if (segments path).head? = some "." then 1 else 0

/-- Drop trivial segments from the end, the given number at the front apart. -/
def dropTrivialEnd (kept : Nat) (parts : List String) : List String :=
  parts.take kept ++ ((parts.drop kept).reverse.dropWhile isTrivial).reverse

/-- The path without its last component; none for the root and the empty path. -/
def parent? (path : String) : Option String :=
  let kept := keptSegments path
  let parts := dropTrivialEnd kept (segments path)
  if isAbsolute path then
    if parts.length ≤ 1 then none
    else
      let above := dropTrivialEnd kept parts.dropLast
      some (if above.length ≤ 1 then "/" else "/".intercalate above)
  else if path.isEmpty || parts.isEmpty then none
  else some ("/".intercalate (if parts.length ≤ 1 then [] else dropTrivialEnd kept parts.dropLast))

/-- The last component when it is a name. -/
def fileName? (path : String) : Option String :=
  match (components path).getLast? with
  | some (.name text) => some text
  | _ => none

/-- What follows the last dot of the file name, when something stands before that dot. -/
def extension? (path : String) : Option String := do
  let name := (← fileName? path).toList.reverse
  let after := name.takeWhile (· ≠ '.')
  match name.dropWhile (· ≠ '.') with
  | [] => none
  | [_] => none
  | _ => some (String.ofList after.reverse)

/-- The extension in small letters, empty when there is none. -/
def lowerExtension (path : String) : String := Text.lowerAscii ((extension? path).getD "")

/-- A path taken in a directory; an absolute one stays as it is. -/
def join (directory path : String) : String :=
  if isAbsolute path then path
  else if directory.isEmpty || directory.toList.getLast? == some '/' then directory ++ path
  else directory ++ "/" ++ path

/-- The parent when it has a text, else the current directory. -/
def parentDirectory (path : String) : String :=
  match parent? path with
  | some above => if above.isEmpty then "." else above
  | none => "."

end ConfigPack.Path
