import ConfigPack.Json.Basic

/-!
# Reading documents

The strict notation: no comments, no commas at the end, names and strings in double quotes, nothing
after the document.  At most 127 arrays and objects may be nested.  A fault carries its cause and
the number of bytes before it, from which line and column follow.

A number without fraction and exponent is whole when it fits 64 bits and floating-point otherwise;
so is a negative zero.  The digits of a floating-point number are gathered into one 64-bit
significand as far as they fit and the power of ten is then applied by one multiplication or
division, or by several divisions for the smallest numbers; the result may differ from the nearest
number in its last bit.
-/

namespace ConfigPack.Json

/-- Why a text is not a document. -/
inductive Cause where
  | endInList
  | endInObject
  | endInString
  | endInValue
  | expectedColon
  | expectedListEnd
  | expectedObjectEnd
  | expectedWord
  | expectedValue
  | invalidEscape
  | invalidNumber
  | numberOutOfRange
  | controlCharacter
  | keyNotString
  | loneSurrogate
  | trailingComma
  | trailingCharacters
  | unfinishedSurrogatePair
  | tooDeep
deriving DecidableEq, Repr

/-- The words for a cause. -/
def Cause.message : Cause → String
  | endInList => "EOF while parsing a list"
  | endInObject => "EOF while parsing an object"
  | endInString => "EOF while parsing a string"
  | endInValue => "EOF while parsing a value"
  | expectedColon => "expected `:`"
  | expectedListEnd => "expected `,` or `]`"
  | expectedObjectEnd => "expected `,` or `\x7d`"
  | expectedWord => "expected ident"
  | expectedValue => "expected value"
  | invalidEscape => "invalid escape"
  | invalidNumber => "invalid number"
  | numberOutOfRange => "number out of range"
  | controlCharacter => "control character (\\u0000-\\u001F) found while parsing a string"
  | keyNotString => "key must be a string"
  | loneSurrogate => "lone leading surrogate in hex escape"
  | trailingComma => "trailing comma"
  | trailingCharacters => "trailing characters"
  | unfinishedSurrogatePair => "unexpected end of hex escape"
  | tooDeep => "recursion limit exceeded"

/-- A cause and the number of bytes before the place it names. -/
structure Fault where
  cause : Cause
  offset : Nat
deriving DecidableEq, Repr

/-- The line, from one, and the column in bytes of the place behind the first `offset` bytes. -/
def position (text : List Char) (offset : Nat) : Nat × Nat :=
  go text offset 1 0
where
  go : List Char → Nat → Nat → Nat → Nat × Nat
    | [], _, line, column => (line, column)
    | c :: rest, left, line, column =>
      if left = 0 then (line, column)
      else if c = '\n' then go rest (left - 1) (line + 1) 0
      else go rest (left - c.utf8Size) line (column + min left c.utf8Size)

/-- The words for a fault in a text. -/
def Fault.message (fault : Fault) (text : String) : String :=
  let (line, column) := position text.toList fault.offset
  s!"{fault.cause.message} at line {line} column {column}"

/-- What is left of a text and how many bytes were read before it. -/
structure Cursor where
  rest : List Char
  offset : Nat

/-- A reader moves a cursor over a text. -/
abbrev Reader := StateT Cursor (Except Fault)

/-- Fail at the place of the cursor. -/
def failHere {α : Type} (cause : Cause) : Reader α := do
  throw ⟨cause, (← get).offset⟩

/-- Fail one byte behind the cursor, or at the cursor when the text has ended. -/
def failAhead {α : Type} (cause : Cause) : Reader α := do
  let cursor ← get
  throw ⟨cause, if cursor.rest.isEmpty then cursor.offset else cursor.offset + 1⟩

/-- The next character, which stays. -/
def peek? : Reader (Option Char) := do
  return (← get).rest.head?

/-- Pass over the next character. -/
def skip : Reader Unit :=
  modify fun cursor => match cursor.rest with
    | [] => cursor
    | c :: rest => ⟨rest, cursor.offset + c.utf8Size⟩

/-- Whether a character is blank between tokens. -/
def isBlank (c : Char) : Bool := c == ' ' || c == '\n' || c == '\t' || c == '\r'

/-- Pass over blanks and look at the next character. -/
def skipBlanks : Reader (Option Char) := do
  modify fun cursor =>
    let blanks := cursor.rest.takeWhile isBlank
    ⟨cursor.rest.dropWhile isBlank, cursor.offset + blanks.length⟩
  peek?

/-- Pass over the decimal digits ahead and return them. -/
def takeDigits : Reader (List Char) := do
  let cursor ← get
  let digits := cursor.rest.takeWhile Char.isDigit
  set (⟨cursor.rest.dropWhile Char.isDigit, cursor.offset + digits.length⟩ : Cursor)
  return digits

/-- Pass over the characters of a word, failing behind the first byte that differs. -/
def expectWord : List Char → Reader Unit
  | [] => pure ()
  | w :: word => do
    match ← peek? with
    | none => failHere .endInValue
    | some c => if c = w then skip; expectWord word else failAhead .expectedWord

/-- The value of a decimal digit. -/
def digitValue (c : Char) : Nat := c.toNat - '0'.toNat

/-- The value of a hexadecimal digit. -/
def hexValue? (c : Char) : Option Nat :=
  if c.isDigit then some (c.toNat - '0'.toNat)
  else if 'a' ≤ c ∧ c ≤ 'f' then some (c.toNat - 'a'.toNat + 10)
  else if 'A' ≤ c ∧ c ≤ 'F' then some (c.toNat - 'A'.toNat + 10)
  else none

/-- Append digits to a significand as long as it stays below `2 ^ 64`; also the digits left over. -/
def gather : List Char → Nat → Nat × List Char
  | [], significand => (significand, [])
  | d :: digits, significand =>
    let next := significand * 10 + digitValue d
    if next < Nat.pow 2 64 then gather digits next else (significand, d :: digits)

/-- `significand · 10 ^ exponent` by rounded steps, none when too great. -/
def scale? (significand : Nat) (exponent : Int) : Option Binary64 :=
  go 4 (Binary64.ofNat significand) exponent
where
  go : Nat → Binary64 → Int → Option Binary64
    | 0, x, _ => some x
    | steps + 1, x, e =>
      if e.natAbs ≤ 308 then
        if e ≥ 0 then
          let y := x.mul (Binary64.pow10 e.natAbs)
          if y.isInfinite then none else some y
        else some (x.div (Binary64.pow10 e.natAbs))
      else if x.isZero then some x
      else if e ≥ 0 then none
      else go steps (x.div (Binary64.pow10 308)) (e + 308)

/-- The floating-point number of a significand and an exponent. -/
def float (negative : Bool) (significand : Nat) (exponent : Int) : Reader Number :=
  match scale? significand exponent with
  | some x => pure (.float (if negative then x.neg else x))
  | none => failHere .numberOutOfRange

/-- Read the exponent behind its mark. -/
def readExponent (negative : Bool) (significand : Nat) (exponent : Int) : Reader Number := do
  skip
  let lowers := (← peek?) == some '-'
  if lowers || (← peek?) == some '+' then skip
  match ← peek? with
  | none => failHere .endInValue
  | some c =>
    if !c.isDigit then failAhead .invalidNumber
    let before ← get
    let digits ← takeDigits
    -- An exponent beyond 31 bits is not gathered to its end.
    let rec limit : List Char → Nat → Nat → Option Nat
      | [], _, _ => none
      | d :: digits, value, read =>
        let next := value * 10 + digitValue d
        if next < Nat.pow 2 31 then limit digits next (read + 1) else some (read + 1)
    match limit digits 0 0 with
    | some read =>
      if significand ≠ 0 && !lowers then throw ⟨.numberOutOfRange, before.offset + read⟩
      else return .float (Binary64.zero negative)
    | none =>
      let value : Int := digits.foldl (fun n d => n * 10 + digitValue d) 0
      let total := if lowers then exponent - value else exponent + value
      float negative significand (max (-2147483648) (min 2147483647 total))

/-- Read what may follow the fraction. -/
def readAfterFraction (negative : Bool) (significand : Nat) (exponent : Int) : Reader Number := do
  match ← peek? with
  | some 'e' | some 'E' => readExponent negative significand exponent
  | _ => float negative significand exponent

/-- Read the fraction behind its point. -/
def readFraction (negative : Bool) (significand : Nat) (exponent : Int) : Reader Number := do
  skip
  let digits ← takeDigits
  if digits.isEmpty then
    failAhead (if (← peek?).isNone then .endInValue else .invalidNumber)
  let (significand, left) := gather digits significand
  readAfterFraction negative significand (exponent - (digits.length - left.length : Nat))

/-- Read a number behind its sign. -/
def readNumber (negative : Bool) : Reader Number := do
  match ← peek? with
  | none => failHere .endInValue
  | some c =>
    if !c.isDigit then failAhead .invalidNumber
    let digits ← if c = '0' then do skip; pure ['0'] else takeDigits
    if c = '0' then
      if let some d ← peek? then
        if d.isDigit then failAhead .invalidNumber
    let (significand, left) := gather digits 0
    match ← peek? with
    | some '.' => readFraction negative significand left.length
    | some 'e' | some 'E' => readExponent negative significand left.length
    | _ =>
      if !left.isEmpty then float negative significand left.length
      else if !negative then return .int significand
      else if significand = 0 || significand > Nat.pow 2 63 then
        return .float (Binary64.ofNat significand).neg
      else return .int (-(significand : Int))

/-- Read the four hexadecimal digits of an escape. -/
def readHex : Reader Nat := do
  let cursor ← get
  let digits := cursor.rest.take 4
  let size := digits.foldl (fun n c => n + c.utf8Size) 0
  if size < 4 then throw ⟨.endInString, cursor.offset + size⟩
  match digits.mapM hexValue? with
  | some values =>
    set (⟨cursor.rest.drop 4, cursor.offset + 4⟩ : Cursor)
    return values.foldl (fun n v => n * 16 + v) 0
  | none => throw ⟨.invalidEscape, cursor.offset + 4⟩

/-- Read one character that the second half of a surrogate pair needs. -/
def expectInPair (c : Char) : Reader Unit := do
  match ← peek? with
  | none => failHere .endInString
  | some d => if d = c then skip else failAhead .unfinishedSurrogatePair

/-- Read an escape behind its backslash. -/
def readEscape : Reader Char := do
  match ← peek? with
  | none => failHere .endInString
  | some c =>
    let simple (d : Char) : Reader Char := do skip; pure d
    match c with
    | '"' => simple '"'
    | '\\' => simple '\\'
    | '/' => simple '/'
    | 'b' => simple '\x08'
    | 'f' => simple '\x0c'
    | 'n' => simple '\n'
    | 'r' => simple '\r'
    | 't' => simple '\t'
    | 'u' =>
      skip
      let unit ← readHex
      if 0xdc00 ≤ unit ∧ unit ≤ 0xdfff then failHere .loneSurrogate
      if unit < 0xd800 ∨ 0xdbff < unit then return Char.ofNat unit
      expectInPair '\\'
      expectInPair 'u'
      let second ← readHex
      if second < 0xdc00 ∨ 0xdfff < second then failHere .loneSurrogate
      return Char.ofNat ((unit - 0xd800) * 1024 + (second - 0xdc00) + 0x10000)
    | _ => failAhead .invalidEscape

/-- Read a string behind its opening quote; `fuel` bounds the number of characters. -/
def readString (fuel : Nat) (out : String) : Reader String := do
  match fuel with
  | 0 => failHere .endInString
  | fuel + 1 =>
    match ← peek? with
    | none => failHere .endInString
    | some '"' => skip; return out
    | some '\\' =>
      skip
      let c ← readEscape
      readString fuel (out.push c)
    | some c =>
      if c.toNat < 0x20 then failAhead .controlCharacter
      skip
      readString fuel (out.push c)

mutual

/-- Read a value; `depth` more arrays and objects may be opened, `fuel` bounds the steps. -/
def readValue (fuel depth : Nat) : Reader Json := do
  match fuel with
  | 0 => failHere .endInValue
  | fuel + 1 =>
    match ← skipBlanks with
    | none => failHere .endInValue
    | some 'n' => skip; expectWord "ull".toList; return .null
    | some 't' => skip; expectWord "rue".toList; return .bool true
    | some 'f' => skip; expectWord "alse".toList; return .bool false
    | some '-' => skip; return .number (← readNumber true)
    | some '"' => skip; return .string (← readString (fuel + 1) "")
    | some '[' =>
      match depth with
      | 0 => failAhead .tooDeep
      | depth + 1 => skip; return .array (← readItems fuel depth [])
    | some '{' =>
      match depth with
      | 0 => failAhead .tooDeep
      | depth + 1 => skip; return .object (← readFields fuel depth true [])
    | some c =>
      if c.isDigit then return .number (← readNumber false) else failAhead .expectedValue

/-- Read the items of an array behind what was read of it, last item first. -/
def readItems (fuel depth : Nat) (read : List Json) : Reader (List Json) := do
  match fuel with
  | 0 => failHere .endInList
  | fuel + 1 =>
    match ← skipBlanks with
    | none => failHere .endInList
    | some ']' => skip; return read.reverse
    | some c =>
      if !read.isEmpty then
        if c ≠ ',' then failAhead .expectedListEnd
        skip
        match ← skipBlanks with
        | none => failHere .endInValue
        | some ']' => failAhead .trailingComma
        | some _ => pure ()
      let item ← readValue fuel depth
      readItems fuel depth (item :: read)

/-- Read the fields of an object behind what was read of it. -/
def readFields (fuel depth : Nat) (first : Bool) (read : List (String × Json)) :
    Reader (List (String × Json)) := do
  match fuel with
  | 0 => failHere .endInObject
  | fuel + 1 =>
    match ← skipBlanks with
    | none => failHere .endInObject
    | some '}' => skip; return read
    | some c =>
      if first then
        if c ≠ '"' then failAhead .keyNotString
      else
        if c ≠ ',' then failAhead .expectedObjectEnd
        skip
        match ← skipBlanks with
        | none => failHere .endInValue
        | some '"' => pure ()
        | some '}' => failAhead .trailingComma
        | some _ => failAhead .keyNotString
      skip
      let name ← readString (fuel + 1) ""
      match ← skipBlanks with
      | none => failHere .endInObject
      | some ':' => skip
      | some _ => failAhead .expectedColon
      let value ← readValue fuel depth
      readFields fuel depth false (setField name value read)

end

/-- Read a document and nothing behind it. -/
def readDocument (fuel : Nat) : Reader Json := do
  let value ← readValue fuel 127
  match ← skipBlanks with
  | none => return value
  | some _ => failAhead .trailingCharacters

/-- The document a text holds. -/
def parse (text : String) : Except Fault Json :=
  let chars := text.toList
  -- Every step but the first and the last passes at least one character.
  (readDocument (2 * chars.length + 2)).run' ⟨chars, 0⟩

end ConfigPack.Json
