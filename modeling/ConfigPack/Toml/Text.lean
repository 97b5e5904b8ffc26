import ConfigPack.Number.Literal
import ConfigPack.Toml.Fault

/-!
# Blanks, comments and strings in TOML

Every reader takes its part from the front of the characters and returns what is left.
-/

namespace ConfigPack.Toml

/-- Whether a character is a blank inside a line. -/
def isBlank (c : Char) : Bool := c == ' ' || c == '\t'

/-- Whether a character may stand in a comment or string. -/
def isTextual (c : Char) : Bool :=
  let n := c.toNat
  n == 9 || (0x20 ≤ n && n ≤ 0x7e) || 0x80 ≤ n

/-- Pass over blanks. -/
def skipBlanks (text : List Char) : List Char := text.dropWhile isBlank

/-- Pass over a comment up to the end of its line, if one begins here. -/
def skipComment (text : List Char) : List Char :=
  match text with
  | '#' :: rest => rest.dropWhile isTextual
  | _ => text

/-- The rest behind a line end. -/
def afterLineEnd? : List Char → Option (List Char)
  | '\n' :: rest => some rest
  | '\r' :: '\n' :: rest => some rest
  | _ => none

/-- Pass over what may stand behind the content of a line, and over its end. -/
def endLine (text : List Char) : Except Fault (List Char) :=
  let rest := skipComment (skipBlanks text)
  if rest.isEmpty then .ok []
  else
    match afterLineEnd? rest with
    | some rest => .ok rest
    | none => .error .unexpected

/-- Pass over blanks, comments and line ends. -/
def skipLines : Nat → List Char → Except Fault (List Char)
  | 0, text => .ok text
  | fuel + 1, text =>
    let text := skipBlanks text
    match text with
    | '#' :: _ =>
      match afterLineEnd? (skipComment text) with
      | some rest => skipLines fuel rest
      | none => .error .unexpected
    | _ =>
      match afterLineEnd? text with
      | some rest => skipLines fuel rest
      | none => .ok text

/-- Read the character of an escape with `count` digits. -/
def readHex (count : Nat) (text : List Char) : Except Fault (Char × List Char) :=
  let digits := text.take count
  match Literal.natural? 16 digits with
  | some n =>
    if digits.length = count ∧ (n < 0xd800 ∨ (0xe000 ≤ n ∧ n < 0x110000)) then
      .ok (Char.ofNat n, text.drop count)
    else .error .badEscape
  | none => .error .badEscape

/-- Read what stands behind a backslash. -/
def readEscape (text : List Char) : Except Fault (Char × List Char) :=
  match text with
  | 'b' :: rest => .ok ('\x08', rest)
  | 'f' :: rest => .ok ('\x0c', rest)
  | 'n' :: rest => .ok ('\n', rest)
  | 'r' :: rest => .ok ('\r', rest)
  | 't' :: rest => .ok ('\t', rest)
  | '"' :: rest => .ok ('"', rest)
  | '\\' :: rest => .ok ('\\', rest)
  | 'u' :: rest => readHex 4 rest
  | 'U' :: rest => readHex 8 rest
  | _ => .error .badEscape

/-- Read a string on one line behind its opening quote; `escapes` says whether it has escapes. -/
def readLineString (quote : Char) (escapes : Bool) (out : String) :
    Nat → List Char → Except Fault (String × List Char)
  | 0, _ => .error .badString
  | _, [] => .error .badString
  | fuel + 1, c :: rest =>
    if c = quote then .ok (out, rest)
    else if c = '\\' ∧ escapes then do
      let (e, rest) ← readEscape rest
      readLineString quote escapes (out.push e) fuel rest
    else if isTextual c then readLineString quote escapes (out.push c) fuel rest
    else .error .badString

/-- The rest behind a line end, if only blanks stand before it. -/
def afterBlankLine? (text : List Char) : Option (List Char) := afterLineEnd? (skipBlanks text)

/-- Pass over blanks and line ends. -/
def skipWhite : List Char → List Char
  | '\r' :: '\n' :: rest => skipWhite rest
  | c :: rest => if isBlank c || c == '\n' then skipWhite rest else c :: rest
  | [] => []

/-- Read a string over several lines behind its opening quotes.  Up to two quotes may stand inside
and directly before the three that close it. -/
def readLongString (quote : Char) (escapes : Bool) (out : String) :
    Nat → List Char → Except Fault (String × List Char)
  | 0, _ => .error .badString
  | _, [] => .error .badString
  | fuel + 1, c :: rest =>
    if c = quote then
      let quotes := (c :: rest).takeWhile (· = quote)
      let rest := (c :: rest).dropWhile (· = quote)
      if quotes.length < 3 then
        readLongString quote escapes (quotes.foldl String.push out) fuel rest
      else if quotes.length ≤ 5 then .ok ((quotes.drop 3).foldl String.push out, rest)
      else .error .badString
    else if c = '\\' ∧ escapes then
      match afterBlankLine? rest with
      | some rest => readLongString quote escapes out fuel (skipWhite rest)
      | none => do
        let (e, rest) ← readEscape rest
        readLongString quote escapes (out.push e) fuel rest
    else
      match afterLineEnd? (c :: rest) with
      | some rest => readLongString quote escapes (out.push '\n') fuel rest
      | none =>
        if isTextual c then readLongString quote escapes (out.push c) fuel rest
        else .error .badString

/-- The text of a long string, without a line end directly behind its opening quotes. -/
def afterOpening (text : List Char) : List Char := (afterLineEnd? text).getD text

/-- Read a string of one of the four kinds. -/
def readString (fuel : Nat) (text : List Char) : Except Fault (String × List Char) :=
  match text with
  | '"' :: '"' :: '"' :: rest => readLongString '"' true "" fuel (afterOpening rest)
  | '\'' :: '\'' :: '\'' :: rest => readLongString '\'' false "" fuel (afterOpening rest)
  | '"' :: rest => readLineString '"' true "" fuel rest
  | '\'' :: rest => readLineString '\'' false "" fuel rest
  | _ => .error .unexpected

end ConfigPack.Toml
