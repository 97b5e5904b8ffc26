import ConfigPack.Json.Basic
import ConfigPack.Json5.Fault
import ConfigPack.Number.Literal
import ConfigPack.Text.CodePoint

/-!
# Parts of JSON5 texts

Blanks and comments, numbers, strings and names.  Every reader takes its part from the front of the
characters and returns what is left.
-/

namespace ConfigPack.Json5

/-- Whether a character ends a line. -/
def isLineEnd (c : Char) : Bool := c == '\n' || c == '\r' || c == '\u2028' || c == '\u2029'

/-- Whether a character is blank. -/
def isBlank (c : Char) : Bool :=
  c == '\t' || c == '\x0b' || c == '\x0c' || c == '\ufeff' || isLineEnd c || Text.isSpaceSeparator c

/-- What a character among blanks belongs to. -/
inductive Gap where
  | blank
  /-- A comment up to the end of the line. -/
  | line
  /-- A comment up to its closing mark. -/
  | block

/-- Pass over blanks and comments. -/
def skipGap : Gap → List Char → Except Fault (List Char)
  | .block, [] => .error .unclosedComment
  | _, [] => .ok []
  | .block, '*' :: '/' :: rest => skipGap .blank rest
  | .block, _ :: rest => skipGap .block rest
  | .line, c :: rest => if isLineEnd c then skipGap .blank rest else skipGap .line rest
  | .blank, '/' :: '*' :: rest => skipGap .block rest
  | .blank, '/' :: '/' :: rest => skipGap .line rest
  | .blank, c :: rest => if isBlank c then skipGap .blank rest else .ok (c :: rest)

/-- Pass over blanks and comments. -/
def skipBlanks (text : List Char) : Except Fault (List Char) := skipGap .blank text

/-- The rest behind a word. -/
def after? : List Char → List Char → Option (List Char)
  | [], rest => some rest
  | _ :: _, [] => none
  | c :: word, d :: rest => if c = d then after? word rest else none

/-- Take an exponent if there is a whole one. -/
def takeExponent (text : List Char) : List Char × List Char :=
  match text with
  | c :: rest =>
    if c = 'e' ∨ c = 'E' then
      let (sign, rest) := match rest with
        | '+' :: rest => (['+'], rest)
        | '-' :: rest => (['-'], rest)
        | rest => ([], rest)
      let digits := rest.takeWhile Char.isDigit
      if digits.isEmpty then ([], text) else (c :: sign ++ digits, rest.dropWhile Char.isDigit)
    else ([], text)
  | [] => ([], [])

/-- Take the digits before the point; a zero stands alone. -/
def takeWhole (text : List Char) : List Char × List Char :=
  match text with
  | '0' :: rest => (['0'], rest)
  | _ => (text.takeWhile Char.isDigit, text.dropWhile Char.isDigit)

/-- Take a decimal. -/
def takeDecimal (text : List Char) : Except Fault (List Char × List Char) :=
  let (whole, rest) := takeWhole text
  match rest with
  | '.' :: rest =>
    let part := rest.takeWhile Char.isDigit
    if whole.isEmpty && part.isEmpty then .error .unexpected
    else
      let (exponent, rest) := takeExponent (rest.dropWhile Char.isDigit)
      .ok (whole ++ '.' :: part ++ exponent, rest)
  | rest =>
    if whole.isEmpty then .error .unexpected
    else
      let (exponent, rest) := takeExponent rest
      .ok (whole ++ exponent, rest)

/-- The number of a decimal: a whole number of 64 bits unless it has a point or an exponent. -/
def decimalNumber (negative : Bool) (text : List Char) : Except Fault Number :=
  if text.all Char.isDigit then
    let n := Literal.decimalNatural text
    if negative then if n ≤ Nat.pow 2 63 then .ok (.int (-(n : Int))) else .error .badNumber
    else if n < Nat.pow 2 63 then .ok (.int n) else .error .badNumber
  else
    match Literal.decimal? (if negative then '-' :: text else text) with
    | some x => if x.isFinite then .ok (.float x) else .error .badNumber
    | none => .error .badNumber

/-- Whether a character is a hexadecimal digit. -/
def isHexDigit (c : Char) : Bool := (Literal.digitBelow? 16 c).isSome

/-- Read a number in base sixteen behind its mark; it has no sign and at most 32 bits. -/
def readHexNumber (signed : Bool) (text : List Char) : Except Fault (Json × List Char) :=
  match Literal.natural? 16 (text.takeWhile isHexDigit) with
  | none => .error .unexpected
  | some n =>
    if signed || n ≥ Nat.pow 2 32 then .error .badNumber
    else .ok (.number (.int n), text.dropWhile isHexDigit)

/-- Read a number without its sign.  What is not finite has no number in a document. -/
def readUnsigned (signed negative : Bool) (text : List Char) : Except Fault (Json × List Char) := do
  match text with
  | '0' :: 'x' :: rest => readHexNumber signed rest
  | '0' :: 'X' :: rest => readHexNumber signed rest
  | _ =>
    match after? "Infinity".toList text with
    | some rest => return (.null, rest)
    | none =>
      match after? "NaN".toList text with
      | some rest => return (.null, rest)
      | none =>
        let (decimal, rest) ← takeDecimal text
        return (.number (← decimalNumber negative decimal), rest)

/-- Read a number. -/
def readNumber (text : List Char) : Except Fault (Json × List Char) :=
  match text with
  | '+' :: rest => readUnsigned true false rest
  | '-' :: rest => readUnsigned true true rest
  | _ => readUnsigned false false text

/-- Read the number of exactly `count` hexadecimal digits. -/
def readHex (count : Nat) (text : List Char) : Except Fault (Nat × List Char) :=
  let digits := text.take count
  match Literal.natural? 16 digits with
  | some n => if digits.length = count then .ok (n, text.drop count) else .error .badEscape
  | none => .error .badEscape

/-- Pass over escaped line ends. -/
def skipContinuations : List Char → List Char
  | '\\' :: '\r' :: '\n' :: rest => skipContinuations rest
  | '\\' :: c :: rest => if isLineEnd c then skipContinuations rest else '\\' :: c :: rest
  | rest => rest

/-- Read the four digits of an escape; a first half of a pair needs its second half. -/
def readUnit (text : List Char) : Except Fault (Char × List Char) := do
  let (n, rest) ← readHex 4 text
  if 0xd800 ≤ n ∧ n < 0xdc00 then
    match skipContinuations rest with
    | '\\' :: 'u' :: rest =>
      let (m, rest) ← readHex 4 rest
      if 0xdc00 ≤ m ∧ m < 0xe000 then
        return (Char.ofNat ((n - 0xd800) * 1024 + (m - 0xdc00) + 0x10000), rest)
      else throw .badEscape
    | _ => throw .badEscape
  else if 0xdc00 ≤ n ∧ n < 0xe000 then throw .badEscape
  else return (Char.ofNat n, rest)

/-- The character of an escape of one letter. -/
def letterEscape (c : Char) : Char :=
  match c with
  | 'b' => '\x08'
  | 'f' => '\x0c'
  | 'n' => '\n'
  | 'r' => '\r'
  | 't' => '\t'
  | 'v' => '\x0b'
  | c => c

/-- Read what stands behind a backslash; an escaped line end stands for nothing. -/
def readEscape (text : List Char) : Except Fault (Option Char × List Char) := do
  match text with
  | [] => throw .unclosedString
  | '\r' :: '\n' :: rest => return (none, rest)
  | 'x' :: rest =>
    let (n, rest) ← readHex 2 rest
    return (some (Char.ofNat n), rest)
  | 'u' :: rest =>
    let (c, rest) ← readUnit rest
    return (some c, rest)
  | '0' :: rest =>
    if rest.head?.any Char.isDigit then throw .badEscape
    return (some '\x00', rest)
  | c :: rest =>
    if isLineEnd c then return (none, rest)
    else if c.isDigit then throw .badEscape
    else return (some (letterEscape c), rest)

/-- Read a string behind its opening quote. -/
def readString (quote : Char) (out : String) : Nat → List Char → Except Fault (String × List Char)
  | 0, _ => .error .unclosedString
  | _, [] => .error .unclosedString
  | fuel + 1, c :: rest =>
    if c = quote then .ok (out, rest)
    else if c = '\\' then do
      let (escaped, rest) ← readEscape rest
      readString quote (match escaped with | some e => out.push e | none => out) fuel rest
    else if c = '\n' ∨ c = '\r' then .error .unclosedString
    else readString quote (out.push c) fuel rest

/-- Whether a character may begin a name. -/
def beginsName (c : Char) : Bool := Text.isLetter c || c == '$' || c == '_'

/-- Whether a character may stand inside a name. -/
def continuesName (c : Char) : Bool :=
  beginsName c || Text.isNamePart c || c == '\u200c' || c == '\u200d'

/-- Read a name; escapes in it stand for any character. -/
def readName (first : Bool) (out : String) : Nat → List Char → Except Fault (String × List Char)
  | 0, _ => .error .unexpected
  | fuel + 1, '\\' :: 'u' :: rest => do
    let (c, rest) ← readUnit rest
    readName false (out.push c) fuel rest
  | fuel + 1, c :: rest =>
    if if first then beginsName c else continuesName c then readName false (out.push c) fuel rest
    else if first then .error .unexpected
    else .ok (out, c :: rest)
  | _ + 1, [] => if first then .error .unexpected else .ok (out, [])

end ConfigPack.Json5
