import ConfigPack.Json5.Token

/-!
# Reading JSON5

JSON5 is JSON with comments, names without quotes, quotes of two kinds, commas at the end of a list,
and more ways to write numbers and escapes.  Of two fields with one name the later value counts, in
the place of the first.
-/

namespace ConfigPack.Json5

mutual

/-- Read a value that is not preceded by blanks. -/
def readValue : Nat → List Char → Except Fault (Json × List Char)
  | 0, _ => .error .unexpected
  | _, [] => .error .unexpected
  | fuel + 1, c :: rest =>
    match c with
    | '[' => do
      let (items, rest) ← readItems [] fuel (← skipBlanks rest)
      return (.array items, rest)
    | '\x7b' => do
      let (fields, rest) ← readFields [] fuel (← skipBlanks rest)
      return (.object fields, rest)
    | '"' => do
      let (s, rest) ← readString '"' "" fuel rest
      return (.string s, rest)
    | '\'' => do
      let (s, rest) ← readString '\'' "" fuel rest
      return (.string s, rest)
    | _ =>
      match after? "null".toList (c :: rest) with
      | some rest => .ok (.null, rest)
      | none =>
        match after? "true".toList (c :: rest) with
        | some rest => .ok (.bool true, rest)
        | none =>
          match after? "false".toList (c :: rest) with
          | some rest => .ok (.bool false, rest)
          | none => readNumber (c :: rest)

/-- Read items up to the closing bracket; those read come last first. -/
def readItems (read : List Json) : Nat → List Char → Except Fault (List Json × List Char)
  | 0, _ => .error .unexpected
  | fuel + 1, text =>
    match text with
    | ']' :: rest => .ok (read.reverse, rest)
    | _ => do
      let (item, rest) ← readValue fuel text
      match ← skipBlanks rest with
      | ',' :: rest => readItems (item :: read) fuel (← skipBlanks rest)
      | ']' :: rest => return ((item :: read).reverse, rest)
      | _ => throw .unexpected

/-- Read fields up to the closing brace. -/
def readFields (read : List (String × Json)) :
    Nat → List Char → Except Fault (List (String × Json) × List Char)
  | 0, _ => .error .unexpected
  | fuel + 1, text =>
    match text with
    | '\x7d' :: rest => .ok (read, rest)
    | _ => do
      let (name, rest) ← match text with
        | '"' :: rest => readString '"' "" fuel rest
        | '\'' :: rest => readString '\'' "" fuel rest
        | _ => readName true "" fuel text
      match ← skipBlanks rest with
      | ':' :: rest =>
        let (value, rest) ← readValue fuel (← skipBlanks rest)
        let fields := Json.setField name value read
        match ← skipBlanks rest with
        | ',' :: rest => readFields fields fuel (← skipBlanks rest)
        | '\x7d' :: rest => return (fields, rest)
        | _ => throw .unexpected
      | _ => throw .unexpected

end

/-- The document that a JSON5 text holds. -/
def parse (text : String) : Except Fault Json := do
  let chars ← skipBlanks text.toList
  let (value, rest) ← readValue (2 * chars.length + 2) chars
  match ← skipBlanks rest with
  | [] => return value
  | _ => throw .trailing

end ConfigPack.Json5
