import ConfigPack.Toml.Number
import ConfigPack.Toml.Table
import ConfigPack.Toml.Time

/-!
# Except Fault (TOML × List Char)

A text is a sequence of lines: keys with values, and headers that open the table to which the keys
behind them belong.  The fields of a table keep the order in which they were first mentioned, but a
table that gets its header after that moves to the place of the header.
-/

namespace ConfigPack.Toml

/-- Values may be nested, and the parts of a key counted, up to one less than this. -/
def maxDepth : Nat := 80

/-- Whether a character may stand in a key without quotes. -/
def isBare (c : Char) : Bool := c.isAlphanum || c == '-' || c == '_'

/-- Read one part of a key. -/
def readPart (fuel : Nat) (text : List Char) : Except Fault (String × List Char) :=
  match text with
  | '"' :: rest => readLineString '"' true "" fuel rest
  | '\'' :: rest => readLineString '\'' false "" fuel rest
  | _ =>
    let bare := text.takeWhile isBare
    if bare.isEmpty then .error .unexpected
    else .ok (String.ofList bare, text.dropWhile isBare)

/-- Read the parts of a key; those read come last first. -/
def readParts (read : List String) : Nat → List Char → Except Fault (List String × List Char)
  | 0, _ => .error .unexpected
  | fuel + 1, text => do
    let (part, rest) ← readPart fuel (skipBlanks text)
    match skipBlanks rest with
    | '.' :: rest => readParts (part :: read) fuel rest
    | rest => return ((part :: read).reverse, rest)

/-- Read a key: the parts before the last one, and the last one. -/
def readKey (fuel : Nat) (text : List Char) :
    Except Fault ((List String × String) × List Char) := do
  let (parts, rest) ← readParts [] fuel text
  if parts.length ≥ maxDepth then throw .tooDeep
  match parts.reverse with
  | last :: before => return ((before.reverse, last), rest)
  | [] => throw .unexpected

mutual

/-- Read a value in which `depth` more may be nested. -/
def readValue (depth : Nat) : Nat → List Char → Except Fault (Json × List Char)
  | 0, _ => .error .unexpected
  | _, [] => .error .unexpected
  | fuel + 1, c :: rest =>
    if c = '[' then
      match depth with
      | 0 => .error .tooDeep
      | depth + 1 => do
        let (items, rest) ← readItems depth [] fuel (← skipLines fuel rest)
        return (.array items, rest)
    else if c = '\x7b' then
      match depth with
      | 0 => .error .tooDeep
      | depth + 1 => do
        let (entries, rest) ← readInline depth true [] fuel (skipBlanks rest)
        return (.object (entriesJson entries), rest)
    else if c = '"' ∨ c = '\'' then do
      let (s, rest) ← readString fuel (c :: rest)
      return (.string s, rest)
    else
      match c :: rest with
      | 't' :: 'r' :: 'u' :: 'e' :: rest => .ok (.bool true, rest)
      | 'f' :: 'a' :: 'l' :: 's' :: 'e' :: rest => .ok (.bool false, rest)
      | text => do
        match ← readMoment? text with
        | some (moment, rest) => return (momentJson moment, rest)
        | none => readNumber text

/-- Read items up to the closing bracket; those read come last first. -/
def readItems (depth : Nat) (read : List Json) :
    Nat → List Char → Except Fault (List Json × List Char)
  | 0, _ => .error .unexpected
  | fuel + 1, text =>
    match text with
    | ']' :: rest => .ok (read.reverse, rest)
    | _ => do
      let (item, rest) ← readValue depth fuel text
      match ← skipLines fuel rest with
      | ',' :: rest => readItems depth (item :: read) fuel (← skipLines fuel rest)
      | ']' :: rest => return ((item :: read).reverse, rest)
      | _ => throw .unexpected

/-- Read the keys and values of a table in braces. -/
def readInline (depth : Nat) (first : Bool) (read : Entries) :
    Nat → List Char → Except Fault (Entries × List Char)
  | 0, _ => .error .unexpected
  | fuel + 1, text =>
    match first, text with
    | true, '\x7d' :: rest => .ok (read, rest)
    | _, _ => do
      let ((path, key), rest) ← readKey fuel text
      match rest with
      | '=' :: rest =>
        let (value, rest) ← readValue depth fuel (skipBlanks rest)
        let entries ← putValue path key value read
        match skipBlanks rest with
        | ',' :: rest => readInline depth false entries fuel rest
        | '\x7d' :: rest => return (entries, rest)
        | _ => throw .unexpected
      | _ => throw .unexpected

end

/-- The kind of the header that opened the current table. -/
inductive Header where
  /-- No header stands before the current keys. -/
  | none
  | table (path : List String) (key : String)
  | element (path : List String) (key : String)

/-- A document as far as it was read. -/
structure Progress where
  /-- The tables that are finished. -/
  finished : Entries
  header : Header
  /-- The table that is being read. -/
  current : Entries

/-- Finish the current table. -/
def Progress.close (progress : Progress) : Except Fault Entries :=
  match progress.header with
  | .none => .ok progress.current
  | .table path key => closeTable path key progress.current progress.finished
  | .element path key => closeElement path key progress.current progress.finished

/-- Open the table of a header. -/
def Progress.openTable (progress : Progress) (path : List String) (key : String) :
    Except Fault Progress := do
  let (finished, mentioned) ← Toml.openTable path key (← progress.close)
  return ⟨finished, .table path key, mentioned⟩

/-- Open a table of a header with double brackets. -/
def Progress.openElement (progress : Progress) (path : List String) (key : String) :
    Except Fault Progress := do
  return ⟨← Toml.openElement path key (← progress.close), .element path key, []⟩

/-- Read a header and the end of its line. -/
def readHeader (progress : Progress) (fuel : Nat) (text : List Char) :
    Except Fault (Progress × List Char) := do
  match text with
  | '[' :: '[' :: rest =>
    let ((path, key), rest) ← readKey fuel rest
    match rest with
    | ']' :: ']' :: rest => return (← progress.openElement path key, ← endLine rest)
    | _ => throw .unexpected
  | '[' :: rest =>
    let ((path, key), rest) ← readKey fuel rest
    match rest with
    | ']' :: rest => return (← progress.openTable path key, ← endLine rest)
    | _ => throw .unexpected
  | _ => throw .unexpected

/-- Read a key, its value and the end of the line. -/
def readEntry (progress : Progress) (fuel : Nat) (text : List Char) :
    Except Fault (Progress × List Char) := do
  let ((path, key), rest) ← readKey fuel text
  match rest with
  | '=' :: rest =>
    let (value, rest) ← readValue (maxDepth - 1) fuel (skipBlanks rest)
    let rest ← endLine rest
    return ({ progress with current := ← putValue path key value progress.current }, rest)
  | _ => throw .unexpected

/-- Read the lines of a document. -/
def readLines (progress : Progress) : Nat → List Char → Except Fault Progress
  | 0, _ => .error .unexpected
  | fuel + 1, text =>
    let text := skipBlanks text
    match text with
    | [] => .ok progress
    | c :: _ =>
      if c = '#' ∨ c = '\n' ∨ c = '\r' then do
        readLines progress fuel (← endLine text)
      else if c = '[' then do
        let (progress, rest) ← readHeader progress fuel text
        readLines progress fuel rest
      else do
        let (progress, rest) ← readEntry progress fuel text
        readLines progress fuel rest

/-- The document that a TOML text holds. -/
def parse (text : String) : Except Fault Json := do
  let chars := match text.toList with
    | '\ufeff' :: rest => rest
    | chars => chars
  let progress ← readLines ⟨[], .none, []⟩ (2 * chars.length + 4) chars
  return .object (entriesJson (← progress.close))

end ConfigPack.Toml
