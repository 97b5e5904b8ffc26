import ConfigPack.Bytes

/-!
# Globs

A glob is a list of tokens, and a path matches when its bytes can be divided among them.  The match
is found in one walk over the tokens that keeps, for every index of the path, whether the tokens so
far can end there.  All tokens but the deep ones stay inside one directory; a class or a question
mark stands for one byte.
-/

namespace ConfigPack.Glob

/-- A part of a glob. -/
inductive Token where
  | literal (c : Char)
  /-- A byte that is no slash. -/
  | any
  /-- Bytes that are no slashes. -/
  | star
  /-- Two stars at the beginning: nothing, or directories. -/
  | deepStart
  /-- Two stars between slashes: a slash, or directories between slashes. -/
  | deepMiddle
  /-- Two stars at the end: a slash and anything below. -/
  | deepEnd
  /-- A byte in one of the ranges, or in none of them. -/
  | oneOf (negated : Bool) (ranges : List (Char × Char))
  /-- One of several globs; those without a token do not count. -/
  | either (branches : List (List Token))

/-- Whether the tokens so far can end at each index of a path. -/
abbrev Reach := List Bool

/-- The byte that stands between the directories of a path. -/
def slash : UInt8 := 47

/-- After one more byte that satisfies a condition. -/
def oneByte (fits : UInt8 → Bool) (bytes : List UInt8) (reach : Reach) : Reach :=
  false :: List.zipWith (fun reached b => reached && fits b) reach bytes

/-- After any number of bytes that satisfy a condition; `opened` says whether the index before
is reached. -/
def manyBytes (fits : UInt8 → Bool) (opened : Bool) : List UInt8 → Reach → Reach
  | bytes, reached :: rest =>
    let now := reached || opened
    now :: match bytes with
      | b :: bytes => manyBytes fits (now && fits b) bytes rest
      | [] => []
  | _, [] => []

/-- After any bytes that end with a slash, from an index that is reached; `entered` says
whether one was. -/
def throughSlash (entered : Bool) : List UInt8 → Reach → Reach
  | b :: bytes, entry :: rest =>
    let entered := entered || entry
    (entered && b == slash) :: throughSlash entered bytes rest
  | _, _ => []

/-- Where a path can be entered by a slash: the indices with a slash that are reached. -/
def atSlash : List UInt8 → Reach → Reach
  | b :: bytes, reached :: rest => (reached && b == slash) :: atSlash bytes rest
  | _, _ => []

/-- Where either of two ways can end. -/
def union (a b : Reach) : Reach := List.zipWith (· || ·) a b

/-- The bytes of a character. -/
def bytesOf (c : Char) : List UInt8 := c.toString.toUTF8.data.toList

/-- The ranges of bytes that a range of characters stands for: the last byte of the first character
up to the first byte of the last one, and the other bytes each for itself. -/
def byteRanges (range : Char × Char) : List (UInt8 × UInt8) :=
  let single (b : UInt8) := (b, b)
  let first := bytesOf range.1
  if range.1 = range.2 then first.map single
  else
    let last := bytesOf range.2
    first.dropLast.map single ++ [(first.getLastD 0, last.headD 0)] ++ last.tail.map single

/-- Whether a byte is in one of the ranges of a class, or in none of them. -/
def inClass (negated : Bool) (ranges : List (Char × Char)) (b : UInt8) : Bool :=
  ((ranges.flatMap byteRanges).any fun r => r.1 ≤ b && b ≤ r.2) != negated

/-- After the bytes of a character. -/
def afterLiteral (c : Char) (bytes : List UInt8) (reach : Reach) : Reach :=
  (bytesOf c).foldl (fun reach b => oneByte (· == b) bytes reach) reach

mutual

/-- Whether a token stands for nothing at all. -/
def Token.isVoid : Token → Bool
  | .either branches => areVoidBranches branches
  | _ => false

/-- Whether no token stands for anything. -/
def areVoid : List Token → Bool
  | [] => true
  | token :: rest => token.isVoid && areVoid rest

/-- Whether no branch stands for anything. -/
def areVoidBranches : List (List Token) → Bool
  | [] => true
  | branch :: rest => areVoid branch && areVoidBranches rest

end

mutual

/-- The reach after one more token. -/
def Token.after (bytes : List UInt8) (reach : Reach) : Token → Reach
  | .literal c => afterLiteral c bytes reach
  | .any => oneByte (· != slash) bytes reach
  | .star => manyBytes (· != slash) false bytes reach
  | .deepStart => union reach (false :: throughSlash false bytes reach)
  | .deepMiddle => false :: throughSlash false bytes (atSlash bytes reach)
  | .deepEnd => manyBytes (fun _ => true) false bytes (oneByte (· == slash) bytes reach)
  | .oneOf negated ranges => oneByte (inClass negated ranges) bytes reach
  | .either branches =>
    if areVoidBranches branches then reach else afterBranches bytes reach branches

/-- The reach after more tokens. -/
def afterTokens (bytes : List UInt8) (reach : Reach) : List Token → Reach
  | [] => reach
  | token :: rest => afterTokens bytes (token.after bytes reach) rest

/-- The reach after one of several branches. -/
def afterBranches (bytes : List UInt8) (reach : Reach) : List (List Token) → Reach
  | [] => reach.map fun _ => false
  | branch :: rest =>
    let others := afterBranches bytes reach rest
    if areVoid branch then others else union (afterTokens bytes reach branch) others

end

/-- Whether a path matches a glob.  Two stars alone match every path. -/
def isMatch (glob : List Token) (path : String) : Bool :=
  match glob with
  | [.deepStart] => true
  | _ =>
    let bytes := path.toUTF8.data.toList
    (afterTokens bytes (true :: bytes.map fun _ => false) glob).getLastD false

end ConfigPack.Glob
