import ConfigPack.Yaml.Fault

/-!
# Tokens of YAML texts

A text is cut into tokens from left to right.  Indentation shows as tokens that open and close
blocks.  Whether a token is a key is known only at the colon behind it, so the place of every token
that may be a key is kept and the tokens of the key are put in there later.  A key in this sense
stands on one line and has at most 1024 characters.
-/

namespace ConfigPack.Yaml

/-- How a scalar is written. -/
inductive ScalarStyle where
  | plain
  | quoted
  | block
deriving DecidableEq, Repr

/-- A token of a text. -/
inductive Token where
  | versionDirective (major minor : Nat)
  | tagDirective (handle tagPrefix : String)
  | documentStart
  | documentEnd
  | blockSequenceStart
  | blockMappingStart
  | blockEnd
  | flowSequenceStart
  | flowSequenceEnd
  | flowMappingStart
  | flowMappingEnd
  | blockEntry
  | flowEntry
  | key
  | value
  | alias (name : String)
  | anchor (name : String)
  | tag (handle suffix : String)
  | scalar (text : String) (style : ScalarStyle)
  | streamEnd
deriving DecidableEq, Repr, Inhabited

namespace Token

/-- A place at which a key may begin. -/
structure PossibleKey where
  /-- How many tokens stand before it. -/
  number : Nat
  /-- Whether nothing but a key can stand there. -/
  required : Bool
  /-- How many characters stand before it. -/
  index : Nat
  line : Nat
  column : Nat

/-- How far a text is cut. -/
structure Scanner where
  rest : List Char
  index : Nat
  line : Nat
  column : Nat
  tokens : Array Token
  /-- The number of flow collections that are open. -/
  flowLevel : Nat
  /-- The column of the innermost open block, `-1` outside of all. -/
  indent : Int
  /-- The columns of the blocks around it, innermost first. -/
  outerIndents : List Int
  /-- Whether a key may begin at the next token. -/
  keyAllowed : Bool
  /-- The possible key of each open flow collection, innermost first, and of the block context. -/
  possibleKeys : List (Option PossibleKey)

/-- A step of cutting a text. -/
abbrev Scan := StateT Scanner (Except Fault)

/-- Whether a character ends a line. -/
def isBreak (c : Char) : Bool :=
  c == '\n' || c == '\r' || c == '\u0085' || c == '\u2028' || c == '\u2029'

/-- Whether a character is a blank or a tab. -/
def isBlank (c : Char) : Bool := c == ' ' || c == '\t'

/-- Whether nothing, a blank or a line end stands there. -/
def isBlankOrEnd : Option Char → Bool
  | none => true
  | some c => isBlank c || isBreak c

/-- Whether a character may stand in the name of an anchor. -/
def isWord (c : Char) : Bool := c.isAlphanum || c == '-' || c == '_'

/-- Whether a document may hold a character. -/
def isAllowed (c : Char) : Bool :=
  let n := c.toNat
  n == 9 || n == 10 || n == 13 || (0x20 ≤ n && n ≤ 0x7e) || n == 0x85 ||
    (0xa0 ≤ n && n ≤ 0xd7ff) || (0xe000 ≤ n && n ≤ 0xfffd) || 0x10000 ≤ n

/-- The character that stands `i` places ahead. -/
def ahead (i : Nat) : Scan (Option Char) := return (← get).rest[i]?

/-- Whether a given character stands next. -/
def nextIs (c : Char) : Scan Bool := return (← get).rest.head? == some c

/-- Pass over characters of one line. -/
def skip (count : Nat) : Scan Unit :=
  modify fun s => { s with
    rest := s.rest.drop count, index := s.index + count, column := s.column + count }

/-- Take the characters ahead that fulfil a condition; they are all of one line. -/
def takeWhile (p : Char → Bool) : Scan (List Char) := do
  let taken := (← get).rest.takeWhile p
  skip taken.length
  return taken

/-- Take the line end ahead: one line feed, or the separator as it stands. -/
def takeBreak : Scan String := do
  let s ← get
  let next (count : Nat) : Scan Unit :=
    set { s with
      rest := s.rest.drop count, index := s.index + count, line := s.line + 1, column := 0 }
  match s.rest with
  | '\r' :: '\n' :: _ => next 2; return "\n"
  | '\u2028' :: _ => next 1; return "\u2028"
  | '\u2029' :: _ => next 1; return "\u2029"
  | c :: _ => if isBreak c then next 1; return "\n" else return ""
  | [] => return ""

/-- Append a token. -/
def emit (token : Token) : Scan Unit :=
  modify fun s => { s with tokens := s.tokens.push token }

/-- Put a token before those from a number on. -/
def insertAt (number : Nat) (token : Token) : Scan Unit :=
  modify fun s => { s with
    tokens := (s.tokens.toList.take number ++ token :: s.tokens.toList.drop number).toArray }

/-- Allow or forbid a key at the next token. -/
def allowKey (allowed : Bool) : Scan Unit := modify fun s => { s with keyAllowed := allowed }

/-- Whether a line of the text begins with three equal marks that stand alone. -/
def atMarker (mark : Char) : Scan Bool := do
  let s ← get
  return s.column == 0 && s.rest.take 3 == [mark, mark, mark] && isBlankOrEnd s.rest[3]?

/-- Whether a document marker stands next. -/
def atDocumentMarker : Scan Bool := return (← atMarker '-') || (← atMarker '.')

/-! ## Blocks and possible keys -/

/-- Close the blocks that begin right of a column; `fuel` bounds their number. -/
def closeBlocks (column : Int) : Nat → Scan Unit
  | 0 => pure ()
  | fuel + 1 => do
    let s ← get
    if s.flowLevel == 0 && s.indent > column then
      set { s with
        tokens := s.tokens.push .blockEnd
        indent := s.outerIndents.headD (-1)
        outerIndents := s.outerIndents.tail }
      closeBlocks column fuel

/-- Close all blocks that begin right of a column. -/
def unroll (column : Int) : Scan Unit := do
  closeBlocks column ((← get).outerIndents.length + 1)

/-- Open a block at a column if it lies right of the innermost one, putting its token before those
from a number on. -/
def roll (column : Nat) (number : Nat) (token : Token) : Scan Unit := do
  let s ← get
  if s.flowLevel == 0 && s.indent < column then
    set { s with indent := (column : Int), outerIndents := s.indent :: s.outerIndents }
    insertAt number token

/-- Forget the possible key of the innermost context; one that is required may not be lost. -/
def dropKey : Scan Unit := do
  let s ← get
  match s.possibleKeys with
  | some possible :: outer =>
    if possible.required then throw .missingColon
    set { s with possibleKeys := none :: outer }
  | _ => pure ()

/-- Keep the next token as a possible key. -/
def saveKey : Scan Unit := do
  let s ← get
  if s.keyAllowed then
    dropKey
    let required := s.flowLevel == 0 && s.indent == (s.column : Int)
    let possible : PossibleKey := ⟨s.tokens.size, required, s.index, s.line, s.column⟩
    modify fun s => { s with possibleKeys := some possible :: s.possibleKeys.tail }

/-- The possible key of the innermost context, if it began on this line and not too far back. -/
def currentKey? : Scan (Option PossibleKey) := do
  let s ← get
  match s.possibleKeys with
  | some possible :: outer =>
    if possible.line < s.line || possible.index + 1024 < s.index then
      if possible.required then throw .missingColon
      set { s with possibleKeys := none :: outer }
      return none
    else return some possible
  | _ => return none

/-! ## Directives, anchors and tags -/

/-- The value of a hexadecimal digit. -/
def hexValue? (c : Char) : Option Nat :=
  if c.isDigit then some (c.toNat - '0'.toNat)
  else if 'a' ≤ c ∧ c ≤ 'f' then some (c.toNat - 'a'.toNat + 10)
  else if 'A' ≤ c ∧ c ≤ 'F' then some (c.toNat - 'A'.toNat + 10)
  else none

/-- The value of hexadecimal digits. -/
def hexNumber? (digits : List Char) : Option Nat :=
  (digits.mapM hexValue?).map fun values => values.foldl (fun n v => n * 16 + v) 0

/-- Read a number of a version. -/
def scanVersionNumber : Scan Nat := do
  let digits ← takeWhile Char.isDigit
  if digits.isEmpty || digits.length > 9 then throw .badDirective
  return digits.foldl (fun n d => n * 10 + (d.toNat - '0'.toNat)) 0

/-- Read a tag handle: marks around a word, or one mark. -/
def scanTagHandle (directive : Bool) : Scan String := do
  if !(← nextIs '!') then throw .badTag
  skip 1
  let word ← takeWhile isWord
  if ← nextIs '!' then
    skip 1
    return String.ofList ('!' :: word ++ ['!'])
  else if directive && !word.isEmpty then throw .badTag
  else return String.ofList ('!' :: word)

/-- Whether a character may stand in a tag; flow indicators only between angle brackets. -/
def isTagChar (bracketed : Bool) (c : Char) : Bool :=
  isWord c || ";/?:@&=+$.%!~*'()".toList.contains c || (bracketed && ",[]".toList.contains c)

/-- The number of bytes of a character by its first byte. -/
def sequenceLength? (b : Nat) : Option Nat :=
  if b < 0x80 then some 1
  else if 0xc0 ≤ b && b < 0xe0 then some 2
  else if 0xe0 ≤ b && b < 0xf0 then some 3
  else if 0xf0 ≤ b && b < 0xf8 then some 4
  else none

/-- Read one byte that is escaped by a percent sign. -/
def scanEscapedByte : Scan Nat := do
  let s ← get
  match s.rest with
  | '%' :: a :: b :: _ =>
    match hexNumber? [a, b] with
    | some n => skip 3; return n
    | none => throw .badTag
  | _ => throw .badTag

/-- Read the bytes that continue a character. -/
def scanContinuation : Nat → List UInt8 → Scan (List UInt8)
  | 0, bytes => return bytes
  | count + 1, bytes => do
    let b ← scanEscapedByte
    if b / 64 ≠ 2 then throw .badTag
    scanContinuation count (bytes ++ [UInt8.ofNat b])

/-- Read the rest of a tag; `fuel` bounds its length. -/
def scanTagText (bracketed : Bool) : Nat → String → Scan String
  | 0, out => return out
  | fuel + 1, out => do
    match ← ahead 0 with
    | some '%' =>
      let first ← scanEscapedByte
      match sequenceLength? first with
      | none => throw .badTag
      | some length =>
        let bytes ← scanContinuation (length - 1) [UInt8.ofNat first]
        match String.fromUTF8? bytes.toByteArray with
        | some text => scanTagText bracketed fuel (out ++ text)
        | none => throw .badTag
    | some c =>
      if isTagChar bracketed c then
        skip 1
        scanTagText bracketed fuel (out.push c)
      else return out
    | none => return out

/-- Read what follows the handle of a tag; `head` was read already and counts as part of it. -/
def scanTagSuffix (bracketed : Bool) (head : String) : Scan String := do
  let fuel := (← get).rest.length
  let before := (← get).index
  let text ← scanTagText bracketed fuel (String.ofList (head.toList.drop 1))
  if head.isEmpty && (← get).index == before then throw .badTag
  return text

/-- Read a tag. -/
def scanTag : Scan Token := do
  let token ←
    if (← ahead 1) == some '<' then
      skip 2
      let suffix ← scanTagSuffix true ""
      if !(← nextIs '>') then throw .badTag
      skip 1
      pure (Token.tag "" suffix)
    else
      let handle ← scanTagHandle false
      if handle.length ≥ 2 && handle.toList.getLast? == some '!' then
        pure (Token.tag handle (← scanTagSuffix false ""))
      else
        let suffix ← scanTagSuffix false handle
        pure (if suffix.isEmpty then Token.tag "" "!" else Token.tag "!" suffix)
  let inFlow := (← get).flowLevel > 0
  if !(inFlow && (← nextIs ',')) && !isBlankOrEnd (← ahead 0) then throw .badTag
  return token

/-- Read the name of an anchor or alias behind its mark. -/
def scanAnchorName : Scan String := do
  skip 1
  let word ← takeWhile isWord
  let next ← ahead 0
  let ends := isBlankOrEnd next || next.any fun c => "?:,]\x7d%@`".toList.contains c
  if word.isEmpty || !ends then throw .badAnchor
  return String.ofList word

/-- Pass over blanks and a comment to the end of the line. -/
def skipToLineEnd : Scan Unit := do
  let _ ← takeWhile isBlank
  if ← nextIs '#' then
    let _ ← takeWhile (!isBreak ·)
  match ← ahead 0 with
  | none => pure ()
  | some c => if !isBreak c then throw .unexpectedToken

/-- Read a directive. -/
def scanDirective : Scan Token := do
  skip 1
  let name ← takeWhile isWord
  if name.isEmpty || !isBlankOrEnd (← ahead 0) then throw .badDirective
  let token ←
    if name = "YAML".toList then
      let _ ← takeWhile isBlank
      let major ← scanVersionNumber
      if !(← nextIs '.') then throw .badDirective
      skip 1
      let minor ← scanVersionNumber
      pure (Token.versionDirective major minor)
    else if name = "TAG".toList then
      let _ ← takeWhile isBlank
      let handle ← scanTagHandle true
      if !(← ahead 0).any isBlank then throw .badDirective
      let _ ← takeWhile isBlank
      let tagPrefix ← scanTagSuffix true ""
      if !isBlankOrEnd (← ahead 0) then throw .badDirective
      pure (Token.tagDirective handle tagPrefix)
    else throw .badDirective
  skipToLineEnd
  let _ ← takeBreak
  return token

/-! ## Scalars -/

/-- The breaks between two lines of text as they show in the scalar: a single line feed is a blank,
further breaks stay. -/
def foldBreaks (leading trailing : String) : String :=
  if leading = "\n" then if trailing.isEmpty then " " else trailing else leading ++ trailing

/-- The state of reading a scalar over several lines. -/
structure Pieces where
  text : String
  /-- Blanks since the last character of the text. -/
  blanks : String
  /-- The first line end since the last character. -/
  leading : String
  /-- The further line ends. -/
  trailing : String
  /-- Whether a line end was passed since the last character. -/
  newLine : Bool

/-- Pass over blanks and line ends inside a scalar; `fuel` bounds their number and `indent`, when
there is one, is the column left of which a tab may not stand. -/
def gatherBlanks (indent : Option Int) : Nat → Pieces → Scan Pieces
  | 0, p => return p
  | fuel + 1, p => do
    match ← ahead 0 with
    | none => return p
    | some c =>
      if isBlank c then
        if let some column := indent then
          if p.newLine && ((← get).column : Int) < column && c == '\t' then throw .tabIndentation
        skip 1
        gatherBlanks indent fuel (if p.newLine then p else { p with blanks := p.blanks.push c })
      else if isBreak c then
        let line ← takeBreak
        if p.newLine then gatherBlanks indent fuel { p with trailing := p.trailing ++ line }
        else gatherBlanks indent fuel { p with blanks := "", leading := line, newLine := true }
      else return p

/-- What an escape letter stands for. -/
def escaped? (c : Char) : Option Char :=
  match c with
  | '0' => some '\x00'
  | 'a' => some '\x07'
  | 'b' => some '\x08'
  | 't' => some '\t'
  | '\t' => some '\t'
  | 'n' => some '\n'
  | 'v' => some '\x0b'
  | 'f' => some '\x0c'
  | 'r' => some '\r'
  | 'e' => some '\x1b'
  | ' ' => some ' '
  | '"' => some '"'
  | '/' => some '/'
  | '\\' => some '\\'
  | 'N' => some '\u0085'
  | '_' => some '\u00a0'
  | 'L' => some '\u2028'
  | 'P' => some '\u2029'
  | _ => none

/-- How many hexadecimal digits an escape letter takes. -/
def escapedDigits? (c : Char) : Option Nat :=
  match c with
  | 'x' => some 2
  | 'u' => some 4
  | 'U' => some 8
  | _ => none

/-- Read an escape. -/
def scanEscape : Scan Char := do
  match ← ahead 1 with
  | none => throw .badEscape
  | some c =>
    match escaped? c, escapedDigits? c with
    | some d, _ => skip 2; return d
    | none, some count =>
      let digits := ((← get).rest.drop 2).take count
      match hexNumber? digits with
      | some n =>
        if digits.length < count || (0xd800 ≤ n && n ≤ 0xdfff) || n > 0x10ffff then throw .badEscape
        skip (2 + count)
        return Char.ofNat n
      | none => throw .badEscape
    | none, none => throw .badEscape

/-- Read the characters of a quoted scalar up to a blank, a line end or the closing quote; says
whether an escaped line end stopped it. -/
def scanQuotedRun (single : Bool) : Nat → String → Scan (String × Bool)
  | 0, out => return (out, false)
  | fuel + 1, out => do
    let c? ← ahead 0
    if isBlankOrEnd c? then return (out, false)
    let c := c?.getD ' '
    if single then
      if c == '\'' then
        if (← ahead 1) == some '\'' then
          skip 2
          scanQuotedRun single fuel (out.push c)
        else return (out, false)
      else
        skip 1
        scanQuotedRun single fuel (out.push c)
    else if c == '"' then return (out, false)
    else if c == '\\' then
      if (← ahead 1).any isBreak then
        skip 1
        let _ ← takeBreak
        return (out, true)
      else
        let d ← scanEscape
        scanQuotedRun single fuel (out.push d)
    else
      skip 1
      scanQuotedRun single fuel (out.push c)

/-- Read a quoted scalar behind its quote. -/
def scanQuotedFrom (single : Bool) : Nat → String → Scan String
  | 0, _ => throw .unclosedQuote
  | fuel + 1, out => do
    if (← atDocumentMarker) || (← ahead 0).isNone then throw .unclosedQuote
    let length := (← get).rest.length
    let (out, newLine) ← scanQuotedRun single (length + 1) out
    if ← nextIs (if single then '\'' else '"') then return out
    let p ← gatherBlanks none (length + 1) ⟨out, "", "", "", newLine⟩
    let gap := if p.newLine then foldBreaks p.leading p.trailing else p.blanks
    scanQuotedFrom single fuel (out ++ gap)

/-- Read a quoted scalar. -/
def scanQuoted (single : Bool) : Scan Token := do
  skip 1
  let text ← scanQuotedFrom single ((← get).rest.length + 1) ""
  skip 1
  return .scalar text .quoted

/-- Read the characters of a plain scalar up to a blank, a line end or an indicator that ends it. -/
def scanPlainRun : Nat → Pieces → Scan Pieces
  | 0, p => return p
  | fuel + 1, p => do
    let c? ← ahead 0
    if isBlankOrEnd c? then return p
    let c := c?.getD ' '
    let next ← ahead 1
    let inFlow := (← get).flowLevel > 0
    if inFlow && c == ':' && next.any (",?[]\x7b\x7d".toList.contains ·) then throw .unexpectedColon
    if (c == ':' && isBlankOrEnd next) || (inFlow && ",[]\x7b\x7d".toList.contains c) then return p
    let gap := if p.newLine then foldBreaks p.leading p.trailing else p.blanks
    skip 1
    scanPlainRun fuel ⟨(p.text ++ gap).push c, "", "", "", false⟩

/-- Read a plain scalar over its lines. -/
def scanPlainFrom (indent : Int) : Nat → Pieces → Scan Pieces
  | 0, p => return p
  | fuel + 1, p => do
    if (← atDocumentMarker) || (← nextIs '#') then return p
    let length := (← get).rest.length
    let p ← scanPlainRun (length + 1) p
    if !(← ahead 0).any (fun c => isBlank c || isBreak c) then return p
    let p ← gatherBlanks (some indent) (length + 1) p
    let s ← get
    if s.flowLevel == 0 && (s.column : Int) < indent then return p
    scanPlainFrom indent fuel p

/-- Read a plain scalar. -/
def scanPlain : Scan Token := do
  let s ← get
  let p ← scanPlainFrom (s.indent + 1) (s.rest.length + 1) ⟨"", "", "", "", false⟩
  if p.newLine then allowKey true
  return .scalar p.text .plain

/-- What becomes of the line ends at the end of a block scalar. -/
inductive Chomping where
  | strip
  | clip
  | keep
deriving DecidableEq, Repr

/-- Pass over the indentation and the empty lines before a line of a block scalar; an indentation
of zero is not known yet.  Gives the line ends and the greatest column. -/
def scanIndentation (indent : Nat) : Nat → String → Nat → Scan (String × Nat)
  | 0, breaks, widest => return (breaks, widest)
  | fuel + 1, breaks, widest => do
    let s ← get
    let room := if indent == 0 then s.rest.length else indent - s.column
    skip (((s.rest.take room).takeWhile (· == ' ')).length)
    let s ← get
    let widest := max widest s.column
    if (indent == 0 || s.column < indent) && (← nextIs '\t') then throw .tabIndentation
    if (← ahead 0).any isBreak then
      let line ← takeBreak
      scanIndentation indent fuel (breaks ++ line) widest
    else return (breaks, widest)

/-- Read the lines of a block scalar; `blankBefore` says whether the line before began with a
blank. -/
def scanBlockLines (literal : Bool) (indent : Nat) :
    Nat → String → String → String → Bool → Scan (String × String × String)
  | 0, text, leading, trailing, _ => return (text, leading, trailing)
  | fuel + 1, text, leading, trailing, blankBefore => do
    let s ← get
    if s.column == indent && !s.rest.isEmpty then
      let blank := (← ahead 0).any isBlank
      let gap :=
        if !literal && leading == "\n" && !blankBefore && !blank then
          if trailing.isEmpty then " " else trailing
        else leading ++ trailing
      let line ← takeWhile (!isBreak ·)
      let leading ← takeBreak
      let (trailing, _) ← scanIndentation indent ((← get).rest.length + 1) "" 0
      scanBlockLines literal indent fuel (text ++ gap ++ String.ofList line) leading trailing blank
    else return (text, leading, trailing)

/-- Read the indentation that a header states. -/
def scanIncrement : Scan Nat := do
  match ← ahead 0 with
  | some c =>
    if c.isDigit then
      if c == '0' then throw .badBlockHeader
      skip 1
      return c.toNat - '0'.toNat
    else return 0
  | none => return 0

/-- Read the chomping that a header states. -/
def scanChomping : Scan (Option Chomping) := do
  match ← ahead 0 with
  | some '+' => skip 1; return some .keep
  | some '-' => skip 1; return some .strip
  | _ => return none

/-- Read a block scalar. -/
def scanBlock (literal : Bool) : Scan Token := do
  skip 1
  let before ← scanChomping
  let increment ← scanIncrement
  let chomping ← match before with
    | some chomping => pure chomping
    | none => if increment > 0 then pure ((← scanChomping).getD .clip) else pure Chomping.clip
  skipToLineEnd
  let _ ← takeBreak
  let outer := (← get).indent
  let stated :=
    if increment == 0 then 0 else if outer ≥ 0 then outer.toNat + increment else increment
  let fuel := (← get).rest.length + 1
  let (trailing, widest) ← scanIndentation stated fuel "" 0
  let indent := if stated == 0 then max widest (max (outer + 1).toNat 1) else stated
  let (text, leading, trailing) ← scanBlockLines literal indent fuel "" "" trailing false
  let text := if chomping == .strip then text else text ++ leading
  return .scalar (if chomping == .keep then text ++ trailing else text) .block

/-! ## The next token -/

/-- Pass over blanks, comments and line ends; `fuel` bounds the number of lines. -/
def skipToToken : Nat → Scan Unit
  | 0 => pure ()
  | fuel + 1 => do
    let s ← get
    if s.index == 0 && (← nextIs '\ufeff') then skip 1
    let tabs := s.flowLevel > 0 || !s.keyAllowed
    let _ ← takeWhile fun c => c == ' ' || (tabs && c == '\t')
    if ← nextIs '#' then
      let _ ← takeWhile (!isBreak ·)
    if (← ahead 0).any isBreak then
      let _ ← takeBreak
      if s.flowLevel == 0 then allowKey true
      skipToToken fuel

/-- Open a flow collection. -/
def openFlow (token : Token) : Scan Unit := do
  saveKey
  modify fun s => { s with flowLevel := s.flowLevel + 1, possibleKeys := none :: s.possibleKeys }
  allowKey true
  skip 1
  emit token

/-- Close a flow collection. -/
def closeFlow (token : Token) : Scan Unit := do
  dropKey
  modify fun s =>
    if s.flowLevel > 0 then
      { s with flowLevel := s.flowLevel - 1, possibleKeys := s.possibleKeys.tail }
    else s
  allowKey false
  skip 1
  emit token

/-- Leave all blocks before a directive or a document marker. -/
def leaveBlocks : Scan Unit := do
  unroll (-1)
  dropKey
  allowKey false

/-- Read the colon behind a key. -/
def scanValue : Scan Unit := do
  match ← currentKey? with
  | some possible =>
    insertAt possible.number .key
    roll possible.column possible.number .blockMappingStart
    modify fun s => { s with possibleKeys := none :: s.possibleKeys.tail }
    allowKey false
  | none =>
    let s ← get
    if s.flowLevel == 0 then
      if !s.keyAllowed then throw .misplacedIndicator
      roll s.column s.tokens.size .blockMappingStart
    allowKey (s.flowLevel == 0)
  skip 1
  emit .value

/-- Read the mark of an entry or of a key that stands alone. -/
def scanMark (block token : Token) (allowAfter : Bool) : Scan Unit := do
  let s ← get
  if s.flowLevel == 0 then
    if !s.keyAllowed then throw .misplacedIndicator
    roll s.column s.tokens.size block
  dropKey
  allowKey allowAfter
  skip 1
  emit token

/-- Read a token that may be a key. -/
def scanKeyLike (scan : Scan Token) : Scan Unit := do
  saveKey
  allowKey false
  emit (← scan)

/-- Whether a plain scalar may begin with a character that has another meaning elsewhere. -/
def isIndicator (c : Char) : Bool := "-?:,[]\x7b\x7d#&*!|>'\"%@`".toList.contains c

/-- Read the next token; says whether the text has ended. -/
def scanNext : Scan Bool := do
  skipToToken ((← get).rest.length + 1)
  unroll (← get).column
  let s ← get
  let inFlow := s.flowLevel > 0
  match s.rest with
  | [] =>
    leaveBlocks
    emit .streamEnd
    return true
  | c :: after =>
    let alone := isBlankOrEnd after.head?
    if s.column == 0 && c == '%' then
      leaveBlocks
      emit (← scanDirective)
    else if ← atMarker '-' then
      leaveBlocks
      skip 3
      emit .documentStart
    else if ← atMarker '.' then
      leaveBlocks
      skip 3
      emit .documentEnd
    else if c == '[' then openFlow .flowSequenceStart
    else if c == '{' then openFlow .flowMappingStart
    else if c == ']' then closeFlow .flowSequenceEnd
    else if c == '}' then closeFlow .flowMappingEnd
    else if c == ',' then
      dropKey
      allowKey true
      skip 1
      emit .flowEntry
    else if c == '-' && alone then scanMark .blockSequenceStart .blockEntry true
    else if c == '?' && (inFlow || alone) then scanMark .blockMappingStart .key (!inFlow)
    else if c == ':' && (inFlow || alone) then scanValue
    else if c == '*' then scanKeyLike (Token.alias <$> scanAnchorName)
    else if c == '&' then scanKeyLike (Token.anchor <$> scanAnchorName)
    else if c == '!' then scanKeyLike scanTag
    else if (c == '|' || c == '>') && !inFlow then
      dropKey
      allowKey true
      emit (← scanBlock (c == '|'))
    else if c == '\'' then scanKeyLike (scanQuoted true)
    else if c == '"' then scanKeyLike (scanQuoted false)
    else if !isBlank c && (!isIndicator c || (c == '-' && !after.head?.any isBlank) ||
        (!inFlow && (c == '?' || c == ':') && !alone)) then
      scanKeyLike scanPlain
    else throw .unknownToken
    return false

/-- Read all tokens; every one but the last takes at least one character. -/
def scanAll : Nat → Scan Unit
  | 0 => pure ()
  | fuel + 1 => do
    if !(← scanNext) then scanAll fuel

/-- The tokens of a text. -/
def scan (text : String) : Except Fault (List Token) := do
  let chars := text.toList
  let chars := if chars.head? = some '\ufeff' then chars.tail else chars
  if !chars.all isAllowed then throw .forbiddenCharacter
  let start : Scanner := ⟨chars, 0, 0, 0, #[], 0, -1, [], true, [none]⟩
  let (_, final) ← (scanAll (chars.length + 2)).run start
  return final.tokens.toList

end Token

end ConfigPack.Yaml
