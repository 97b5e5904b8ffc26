import ConfigPack.Glob.Basic

/-!
# Reading globs

A glob is read from left to right.  Groups of alternatives stand in curly brackets, separated by
commas, and may hold further groups; a class stands in square brackets; a backslash takes the
character behind it literally.
-/

namespace ConfigPack.Glob

/-- Why a text is no glob. -/
inductive Fault where
  | unclosedClass
  /-- A range whose end comes before its beginning. -/
  | invalidRange (first last : Char)
  | unopenedGroup
  | unclosedGroup
  /-- A backslash at the end. -/
  | danglingEscape
deriving DecidableEq, Repr

/-- The words for a fault. -/
def Fault.message : Fault → String
  | unclosedClass => "unclosed character class; missing ']'"
  | invalidRange first last =>
    "invalid range; '" ++ first.toString ++ "' > '" ++ last.toString ++ "'"
  | unopenedGroup =>
    "unopened alternate group; missing '\x7b' (maybe escape '\x7d' with '[\x7d]'?)"
  | unclosedGroup =>
    "unclosed alternate group; missing '\x7d' (maybe escape '\x7b' with '[\x7b]'?)"
  | danglingEscape => "dangling '\\'"

/-- The branches of a group that is being read, the last one first, with its tokens reversed. -/
structure Group where
  done : List (List Token)
  current : List Token

/-- What was read so far: the group that is being read and the groups around it. -/
structure Progress where
  group : Group
  around : List Group

namespace Progress

/-- Add a token. -/
def push (p : Progress) (token : Token) : Progress :=
  { p with group := { p.group with current := token :: p.group.current } }

/-- Whether a group is open. -/
def inGroup (p : Progress) : Bool := !p.around.isEmpty

/-- Begin a group. -/
def openGroup (p : Progress) : Progress := ⟨⟨[], []⟩, p.group :: p.around⟩

/-- Begin the next branch. -/
def nextBranch (p : Progress) : Progress :=
  { p with group := ⟨p.group.current.reverse :: p.group.done, []⟩ }

/-- The branches of a group in order. -/
def branches (p : Progress) : List (List Token) :=
  (p.group.current.reverse :: p.group.done).reverse

/-- End a group. -/
def closeGroup (p : Progress) : Except Fault Progress :=
  match p.around with
  | [] => .error .unopenedGroup
  | outer :: around => .ok (push ⟨outer, around⟩ (.either p.branches))

/-- Put two stars behind a slash in the place of that slash, or leave the deep token that covers
it. -/
def pushDeep (p : Progress) (token : Token) : Progress :=
  match p.group.current with
  | .deepStart :: _ => p
  | .deepEnd :: _ => p
  | _ :: rest => { p with group := { p.group with current := token :: rest } }
  | [] => p.push token

end Progress

/-- A class that is being read: its ranges, the last one first, and whether a dash was read that may
make a range of the last one. -/
structure ClassProgress where
  ranges : List (Char × Char)
  dashed : Bool

/-- Add a character to a class. -/
def ClassProgress.add (p : ClassProgress) (c : Char) : Except Fault ClassProgress :=
  match p.dashed, p.ranges with
  | true, (first, _) :: rest =>
    if c < first then .error (.invalidRange first c) else .ok ⟨(first, c) :: rest, false⟩
  | _, ranges => .ok ⟨(c, c) :: ranges, false⟩

/-- The ranges of a class in order; a dash at its end stands for itself. -/
def ClassProgress.finish (p : ClassProgress) : List (Char × Char) :=
  ((if p.dashed then [('-', '-')] else []) ++ p.ranges).reverse

/-- Read a class behind its first character up to the bracket that closes it. -/
def readClassFrom (p : ClassProgress) : List Char → Except Fault (List (Char × Char) × List Char)
  | [] => .error .unclosedClass
  | ']' :: rest => .ok (p.finish, rest)
  | '-' :: rest =>
    if p.dashed then do readClassFrom (← p.add '-') rest
    else readClassFrom { p with dashed := true } rest
  | c :: rest => do readClassFrom (← p.add c) rest

/-- Read the ranges of a class; its first character always stands for itself. -/
def readClass : List Char → Except Fault (List (Char × Char) × List Char)
  | [] => .error .unclosedClass
  | c :: rest => readClassFrom ⟨[(c, c)], false⟩ rest

/-- Read two stars; `before` is the character in front of them.  They are deep when they stand alone
between slashes, and two plain stars otherwise. -/
def readStars (p : Progress) (before : Option Char) (rest : List Char) : Progress × List Char :=
  let plain := ((p.push .star).push .star, rest)
  if p.group.current.isEmpty then
    match rest with
    | [] => (p.push .deepStart, [])
    | '/' :: behind => (p.push .deepStart, behind)
    | _ => plain
  else if before = some '/' || (p.inGroup && (before = some ',' || before = some '\x7b')) then
    match rest with
    | [] => (p.pushDeep .deepEnd, [])
    | '/' :: behind => (p.pushDeep .deepMiddle, behind)
    | c :: _ => if p.inGroup && (c = ',' || c = '\x7d') then (p.pushDeep .deepEnd, rest) else plain
  else plain

/-- Read a glob; `before` is the last character that was read. -/
def readFrom : (fuel : Nat) → Progress → (before : Option Char) → List Char →
    Except Fault (List Token)
  | 0, _, _, _ => .error .unclosedGroup
  | _, p, _, [] => if p.inGroup then .error .unclosedGroup else .ok p.group.current.reverse
  | fuel + 1, p, before, c :: rest =>
    match c with
    | '?' => readFrom fuel (p.push .any) c rest
    | '*' =>
      match rest with
      | '*' :: behind =>
        let (p, left) := readStars p before behind
        let last := if left.length < behind.length then '/' else '*'
        readFrom fuel p last left
      | _ => readFrom fuel (p.push .star) c rest
    | '[' => do
      let (negated, body) := match rest with
        | '!' :: body => (true, body)
        | '^' :: body => (true, body)
        | _ => (false, rest)
      let (ranges, left) ← readClass body
      readFrom fuel (p.push (.oneOf negated ranges)) ']' left
    | '\x7b' => readFrom fuel p.openGroup c rest
    | '\x7d' => do readFrom fuel (← p.closeGroup) c rest
    | ',' => readFrom fuel (if p.inGroup then p.nextBranch else p.push (.literal c)) c rest
    | '\\' =>
      match rest with
      | [] => .error .danglingEscape
      | escaped :: behind => readFrom fuel (p.push (.literal escaped)) escaped behind
    | _ => readFrom fuel (p.push (.literal c)) c rest

/-- Read a glob. -/
def parse (text : String) : Except Fault (List Token) :=
  readFrom (text.length + 1) ⟨⟨[], []⟩, []⟩ none text.toList

end ConfigPack.Glob
