import ConfigPack.Number.Shortest
import ConfigPack.Yaml.Scalar

/-!
# Writing YAML values

A value is written in block form, two blanks deeper than what holds it; a sequence under a key
stands at the column of the key.  Empty collections are written in brackets.  A text is written
plain when it then reads back as itself, with single quotes when it would read as something else, as
a block when it holds line feeds, and with double quotes and escapes where nothing else is possible.

A key stands before its colon when it fits on one line of 128 bytes, else behind a question mark on
a line of its own.
-/

namespace ConfigPack.Yaml

/-- Floating-point numbers in YAML: an exponent has no sign when it is positive. -/
def numberLayout : NumberLayout := ⟨"", ".inf", "-.inf", ".nan"⟩

/-- A number as text. -/
def renderNumber : Number → String
  | .int n => toString n
  | .float x => numberLayout.render x

/-- Whether a character is written as it is. -/
def isPrintable (c : Char) : Bool :=
  let n := c.toNat
  n == 10 || (0x20 ≤ n && n ≤ 0x7e) || (0xa0 ≤ n && n ≤ 0xd7ff) ||
    (0xe000 ≤ n && n ≤ 0xfffd && n != 0xfeff) || 0x10000 ≤ n

/-- Whether a character ends a line. -/
def isLineEnd (c : Char) : Bool :=
  c == '\n' || c == '\r' || c == '\u0085' || c == '\u2028' || c == '\u2029'

/-- Whether nothing, a blank or a line end stands there. -/
def isGap : Option Char → Bool
  | none => true
  | some c => c == ' ' || c == '\t' || c == '\x00' || isLineEnd c

/-- Whether two neighbours somewhere in a text satisfy a relation. -/
def hasNeighbours (related : Char → Char → Bool) (text : List Char) : Bool :=
  (text.zip text.tail).any fun p => related p.1 p.2

/-- Whether a plain scalar may not begin as a text does. -/
def beginsLikeIndicator (text : List Char) : Bool :=
  match text with
  | '-' :: '-' :: '-' :: _ => true
  | '.' :: '.' :: '.' :: _ => true
  | c :: rest =>
    "#,[]\x7b\x7d&*!|>'\"%@`".contains c || ((c == '?' || c == '-') && isGap rest.head?)
  | [] => false

/-- Whether a text holds a colon before a gap, or a number sign behind one. -/
def holdsIndicator (text : List Char) : Bool :=
  hasNeighbours (fun a b => (a == ':' && isGap (some b)) || (isGap (some a) && b == '#')) text ||
    text.getLast? == some ':'

/-- What a text allows of the ways to write it. -/
structure Shape where
  multiline : Bool
  plain : Bool
  single : Bool
  block : Bool
deriving Repr

/-- What a text allows of the ways to write it. -/
def Shape.of (text : List Char) : Shape :=
  let blank (c : Option Char) : Bool := c == some ' '
  let ends (c : Option Char) : Bool := c.any isLineEnd
  let multiline := text.any isLineEnd
  let breakSpace := hasNeighbours (fun a b => isLineEnd a && b == ' ') text
  let unwritten := hasNeighbours (fun a b => a == ' ' && isLineEnd b) text || !text.all isPrintable
  let outer := blank text.head? || ends text.head? || blank text.getLast? || ends text.getLast?
  { multiline
    plain := !outer && !breakSpace && !unwritten && !multiline &&
      !beginsLikeIndicator text && !holdsIndicator text
    single := !breakSpace && !unwritten
    block := !text.isEmpty && !blank text.getLast? && !unwritten }

/-- The way a text is written. -/
inductive TextStyle where
  | plain
  | single
  | double
  | block
deriving DecidableEq, Repr

/-- The way a text is written as a value or behind a question mark, or as a key before a colon. -/
def TextStyle.of (isKey : Bool) (text : String) : TextStyle :=
  let shape := Shape.of text.toList
  let quoted := if shape.single then single else double
  if isKey && shape.multiline then double
  else if text.contains '\n' then if shape.block && !isKey then block else double
  else if Plain.ofText text ≠ .text || Plain.isZeroLed text.toList then quoted
  else if shape.plain then plain
  else quoted

/-- `count` blanks. -/
def blanks (count : Nat) : String := String.ofList (List.replicate count ' ')

/-- The text of a line structure: every line that holds something starts with an indentation. -/
def indentLines (indent : Nat) (fresh : Bool) : List Char → String → String × Bool
  | [], out => (out, fresh)
  | c :: rest, out =>
    if isLineEnd c then indentLines indent true rest (out.push c)
    else indentLines indent false rest ((if fresh then out ++ blanks indent else out).push c)

/-- A text in single quotes. -/
def singleQuoted (indent : Nat) (text : String) : String :=
  let doubled := text.toList.flatMap fun c => if c = '\'' then ['\'', '\''] else [c]
  let (body, fresh) := indentLines indent false doubled "'"
  (if fresh then body ++ blanks indent else body) ++ "'"

/-- A number in upper hexadecimal digits, at least `width` of them. -/
def hexUpper (width n : Nat) : List Char :=
  let digits := (Nat.toDigits 16 n).map Char.toUpper
  List.replicate (width - digits.length) '0' ++ digits

/-- A character inside double quotes. -/
def escape (c : Char) : List Char :=
  match c with
  | '\x00' => ['\\', '0']
  | '\x07' => ['\\', 'a']
  | '\x08' => ['\\', 'b']
  | '\t' => ['\\', 't']
  | '\n' => ['\\', 'n']
  | '\x0b' => ['\\', 'v']
  | '\x0c' => ['\\', 'f']
  | '\r' => ['\\', 'r']
  | '\x1b' => ['\\', 'e']
  | '"' => ['\\', '"']
  | '\\' => ['\\', '\\']
  | '\u0085' => ['\\', 'N']
  | '\u2028' => ['\\', 'L']
  | '\u2029' => ['\\', 'P']
  | c =>
    if isPrintable c then [c]
    else if c.toNat ≤ 0xff then '\\' :: 'x' :: hexUpper 2 c.toNat
    else if c.toNat ≤ 0xffff then '\\' :: 'u' :: hexUpper 4 c.toNat
    else '\\' :: 'U' :: hexUpper 8 c.toNat

/-- A text in double quotes. -/
def doubleQuoted (text : String) : String :=
  text.foldl (fun out c => (escape c).foldl String.push out) "\"" ++ "\""

/-- The mark behind the bar of a block: how line feeds at its end are meant. -/
def endMark (text : List Char) : String :=
  match text.reverse with
  | c :: rest =>
    if !isLineEnd c then "-"
    else if rest.isEmpty || rest.head?.any isLineEnd then "+" else ""
  | [] => "-"

/-- A written value, and whether its last line is ended. -/
structure Written where
  text : String
  ended : Bool

/-- Put a text before a written value. -/
def Written.behind (written : Written) (before : String) : Written :=
  { written with text := before ++ written.text }

/-- A written value up to the start of the next line, which is indented. -/
def Written.nextLine (written : Written) (indent : Nat) : String :=
  written.text ++ (if written.ended then "" else "\n") ++ blanks indent

/-- A text as a block. -/
def blockText (indent : Nat) (text : String) : Written :=
  let chars := text.toList
  let hint := if chars.head?.any fun c => c == ' ' || isLineEnd c then "2" else ""
  let (body, fresh) := indentLines indent true chars ("|" ++ hint ++ endMark chars ++ "\n")
  ⟨body, fresh⟩

/-- A text written in a style; further lines are indented by `indent`. -/
def writeText (indent : Nat) (text : String) : TextStyle → Written
  | .plain => ⟨text, false⟩
  | .single => ⟨singleQuoted indent text, false⟩
  | .double => ⟨doubleQuoted text, false⟩
  | .block => blockText indent text

/-- A character inside a tag: what may not stand there is written as its bytes. -/
def escapeTag (c : Char) : String :=
  if c.isAlphanum || "-_;?:@&=+$,.~*'()[]/".contains c then String.singleton c
  else String.join (c.toString.toUTF8.toList.map fun b => String.ofList ('%' :: hexUpper 2 b.toNat))

/-- The mark of an application tag and its text. -/
def tagText (tag : String) : String :=
  let full := if tag.startsWith "!" then tag else "!" ++ tag
  let escaped (s : List Char) : String := String.join (s.map escapeTag)
  match full.toList with
  | '!' :: c :: rest => "!" ++ escaped (c :: rest)
  | chars => "!<" ++ escaped chars ++ ">"

/-- The number of bytes of a value that may stand before a colon; none for other values. -/
def keyLength? : Yaml → Option Nat
  | .null => some 4
  | .bool b => some (if b then 4 else 5)
  | .number n => some (renderNumber n).utf8ByteSize
  | .string s => if (Shape.of s.toList).multiline then none else some s.utf8ByteSize
  | .sequence items => if items.isEmpty then some 0 else none
  | .mapping entries => if entries.isEmpty then some 0 else none
  | .tagged tag value =>
    (keyLength? value).map (· + (if tag.startsWith "!" then tag else "!" ++ tag).utf8ByteSize)

/-- Whether a key stands before its colon. -/
def isShortKey (key : Yaml) : Bool := (keyLength? key).any (· ≤ 128)

/-- A key before its colon. -/
def shortKey (indent : Nat) : Yaml → String
  | .null => "null"
  | .bool b => if b then "true" else "false"
  | .number n => renderNumber n
  | .string s => (writeText indent s (TextStyle.of true s)).text
  | .sequence _ => "[]"
  | .mapping _ => "\x7b\x7d"
  | .tagged tag value => tagText tag ++ " " ++ shortKey indent value

/-- What holds a value that is written. -/
inductive Holder where
  /-- Nothing: it is the whole document. -/
  | document
  /-- A sequence at an indentation. -/
  | sequence (indent : Nat)
  /-- A mapping at an indentation. -/
  | mapping (indent : Nat)

/-- The indentation of the lines of a text. -/
def Holder.textIndent : Holder → Nat
  | document => 2
  | sequence indent => indent + 2
  | mapping indent => indent + 2

/-- The indentation of a mapping. -/
def Holder.mappingIndent : Holder → Nat
  | document => 0
  | sequence indent => indent + 2
  | mapping indent => indent + 2

/-- The indentation of a sequence, which in a mapping depends on whether it starts on the line of an
indicator. -/
def Holder.sequenceIndent (here : Bool) : Holder → Nat
  | document => 0
  | sequence indent => indent + 2
  | mapping indent => if here then indent + 2 else indent

/-- Rows one below the other. -/
def stack (indent : Nat) : List Written → Written
  | [] => ⟨"", true⟩
  | [row] => row
  | row :: rest => (stack indent rest).behind (row.nextLine indent)

mutual

/-- A value behind `lead`; `here` says whether a collection may start on the same line. -/
def write (holder : Holder) (lead : String) (here : Bool) : Yaml → Written
  | .null => ⟨lead ++ "null", false⟩
  | .bool b => ⟨lead ++ (if b then "true" else "false"), false⟩
  | .number n => ⟨lead ++ renderNumber n, false⟩
  | .string s => (writeText holder.textIndent s (TextStyle.of false s)).behind lead
  | .sequence items =>
    if items.isEmpty then ⟨lead ++ "[]", false⟩
    else
      let indent := holder.sequenceIndent here
      let start := if here then lead else "\n" ++ blanks indent
      (stack indent (writeItems indent items)).behind start
  | .mapping entries =>
    if entries.isEmpty then ⟨lead ++ "\x7b\x7d", false⟩
    else
      let indent := holder.mappingIndent
      let start := if here then lead else "\n" ++ blanks indent
      (stack indent (writeEntries indent entries)).behind start
  | .tagged tag value => (write holder " " false value).behind (lead ++ tagText tag)

/-- The rows of the items of a sequence. -/
def writeItems (indent : Nat) : List Yaml → List Written
  | [] => []
  | item :: rest => (write (.sequence indent) " " true item).behind "-" :: writeItems indent rest

/-- The rows of the entries of a mapping. -/
def writeEntries (indent : Nat) : List (Yaml × Yaml) → List Written
  | [] => []
  | (key, value) :: rest =>
    (if isShortKey key then
      (write (.mapping indent) " " false value).behind (shortKey (indent + 2) key ++ ":")
    else
      let question := (write (.mapping indent) " " true key).behind "?"
      (write (.mapping indent) " " true value).behind (question.nextLine indent ++ ":")) ::
      writeEntries indent rest

end

/-- Whether a value, as the key of a mapping of one entry, would be mistaken for a tag. -/
def resemblesTag : Yaml → Bool
  | .mapping entries => entries.length == 1
  | .tagged _ _ => true
  | _ => false

mutual

/-- Whether a value can be written; `underTag` says whether a tag stands directly before it. -/
def isWritable (underTag : Bool) : Yaml → Bool
  | .sequence items => areWritable items
  | .mapping entries =>
    (underTag || entries.length != 1 || !entries.any fun e => resemblesTag e.1) &&
      entriesAreWritable entries
  | .tagged _ value => isWritable true value
  | _ => true

/-- Whether items can be written. -/
def areWritable : List Yaml → Bool
  | [] => true
  | item :: rest => isWritable false item && areWritable rest

/-- Whether entries can be written. -/
def entriesAreWritable : List (Yaml × Yaml) → Bool
  | [] => true
  | (key, value) :: rest => isWritable false key && isWritable false value && entriesAreWritable rest

end

/-- The text of a value. -/
def print (value : Yaml) : Except Fault String :=
  if isWritable false value then .ok ((write .document "" true value).nextLine 0)
  else .error .unwritableKey

end ConfigPack.Yaml
