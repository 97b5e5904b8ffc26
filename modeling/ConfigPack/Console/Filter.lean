import ConfigPack.Console.Severity
import ConfigPack.Text.CodePoint

/-!
# Filters

A filter says which lines of a log are shown.  It is a list of directives separated by commas; each
sets a limit for a topic and all topics below it, or for all lines.  The directive with the longest
topic decides, and of two for one topic the later.
-/

namespace ConfigPack.Console

/-- A limit for lines. -/
structure Directive where
  /-- How the topic of the lines begins. -/
  topic : Option String
  /-- A field that the lines have. -/
  field : Option String
  /-- The greatest rank that is shown. -/
  limit : Nat
deriving DecidableEq, Repr

/-- A filter. -/
abbrev Filter := List Directive

namespace Directive

/-- Whether a directive is about the lines of a level. -/
def covers (d : Directive) (level : LogLevel) : Bool :=
  (match d.topic with
    | some topic => level.topic.startsWith topic
    | none => true) &&
  (match d.field with
    | some field => level.fields.contains field
    | none => true)

/-- The length of the topic, which is more for an empty one than for none. -/
def reach (d : Directive) : Nat :=
  match d.topic with
  | some topic => topic.utf8ByteSize + 1
  | none => 0

/-- Whether the field of a directive is at least that of another. -/
def fieldAtLeast (d other : Directive) : Bool :=
  match d.field, other.field with
  | some a, some b => decide (b ≤ a)
  | none, some _ => false
  | _, none => true

/-- Whether a directive is at least as specific as another one. -/
def isAtLeast (d other : Directive) : Bool :=
  d.reach > other.reach || (d.reach = other.reach && d.fieldAtLeast other)

end Directive

/-- The more specific of two directives, the second if they are equally so. -/
def moreSpecific (best : Option Directive) (d : Directive) : Option Directive :=
  match best with
  | none => some d
  | some other => if d.isAtLeast other then some d else best

/-- Whether a filter shows the lines of a level. -/
def Filter.shows (filter : Filter) (level : LogLevel) : Bool :=
  match (filter.filter fun d => d.covers level).foldl moreSpecific none with
  | some d => level.rank ≤ d.limit
  | none => false

/-- The filter that shows all lines up to a rank. -/
def Filter.upTo (limit : Nat) : Filter := [⟨none, none, limit⟩]

/-! ## Limits -/

/-- The words for limits. -/
def limitWords : List (String × Nat) :=
  [("", 1), ("off", 0), ("error", 1), ("warn", 2), ("info", 3), ("debug", 4), ("trace", 5)]

/-- The digits of a number, behind a plus sign if there is one. -/
def unsigned : List Char → List Char
  | '+' :: rest => rest
  | digits => digits

/-- The limit that a number stands for. -/
def limitOfDigits? (text : String) : Option Nat :=
  let digits := unsigned text.toList
  if digits.isEmpty || !digits.all Char.isDigit then none
  else
    match digits.dropWhile (· = '0') with
    | [] => some 0
    | [c] => if c.toNat ≤ '5'.toNat then some (c.toNat - '0'.toNat) else none
    | _ => none

/-- The limit that a text stands for. -/
def limit? (text : String) : Option Nat :=
  match limitOfDigits? text with
  | some limit => some limit
  | none => limitWords.lookup (Text.lowerAscii text)

/-! ## Reading directives -/

/-- The greatest limit. -/
def unlimited : Nat := 5

/-- The limit behind an equals sign; nothing there sets none. -/
def limitBehind? (text : String) : Option Nat :=
  if text.isEmpty then some unlimited else limit? text

/-- What a part of a filter says. -/
inductive Clause where
  | directive (d : Directive)
  /-- It is about stretches of time, not about lines. -/
  | span
deriving DecidableEq, Repr

/-- Where the reading of a clause stands, with the index at which the part that is being read
begins. -/
inductive Stage where
  | start
  /-- In a word that is a topic or a limit. -/
  | word (begin : Nat)
  /-- In the name of a span. -/
  | span (begin : Nat)
  | field (begin : Nat)
  | behindField
  | behindBracket
  | limit (begin : Nat)
deriving DecidableEq, Repr

/-- A clause as far as it is read. -/
structure Reading where
  stage : Stage
  topic : Option String
  /-- Whether a span is named. -/
  named : Bool
  field : Option String
deriving DecidableEq, Repr

/-- The part of a text between two indices. -/
def part (text : List Char) (begin stop : Nat) : String :=
  String.ofList ((text.drop begin).take (stop - begin))

/-- Whether a character may begin a topic. -/
def beginsTopic (c : Char) : Bool :=
  c = '-' || c = ':' || c = '_' || c.isDigit || Text.isLetter c

/-- The reading after one more character, which has an index. -/
def Reading.next? (text : List Char) (r : Reading) (index : Nat) (c : Char) : Option Reading :=
  match r.stage with
  | .start =>
    if c = '[' then some { r with stage := .span (index + 1) }
    else if beginsTopic c then some { r with stage := .word index }
    else none
  | .word begin =>
    if c = '=' then
      some { r with topic := some (part text begin index), stage := .limit (index + 1) }
    else if c = '[' then
      some { r with topic := some (part text begin index), stage := .span (index + 1) }
    else some r
  | .span begin =>
    if c = ']' then some { r with named := true, stage := .behindBracket }
    else if c = '\x7b' then
      some { r with named := !(part text begin index).isEmpty, stage := .field (index + 1) }
    else some r
  | .field begin =>
    if c = '\x7d' then
      let field := part text begin index
      if field.isEmpty then none else some { r with field := some field, stage := .behindField }
    else some r
  | .behindField => if c = ']' then some { r with stage := .behindBracket } else none
  | .behindBracket => if c = '=' then some { r with stage := .limit (index + 1) } else none
  | .limit _ => some r

/-- Read the characters of a clause from an index on. -/
def Reading.run (text : List Char) (r : Reading) (index : Nat) : List Char → Option Reading
  | [] => some r
  | c :: rest => (r.next? text index c).bind fun r => Reading.run text r (index + 1) rest

/-- The clause with a limit.  A field with a value is looked for in spans only. -/
def Reading.clause (r : Reading) (limit : Nat) : Clause :=
  if r.named || (r.field.any fun f => f.contains '=') then .span
  else .directive ⟨r.topic, r.field, limit⟩

/-- The clause that was read to its end. -/
def Reading.finish (text : List Char) (r : Reading) : Option Clause :=
  match r.stage with
  | .word begin =>
    let word := String.ofList (text.drop begin)
    match limit? word with
    | some limit => some (.directive ⟨none, none, limit⟩)
    | none => some (.directive ⟨some word, none, unlimited⟩)
  | .limit begin => (limitBehind? (String.ofList (text.drop begin))).map r.clause
  | .behindBracket => some (r.clause unlimited)
  | _ => none

/-- Read a clause.  White space around it is passed over when its parts are found, but their indices
count from the beginning of the text. -/
def clause? (text : String) : Option Clause :=
  ((Reading.mk .start none false none).run text.toList 0 (Text.trim text).toList).bind
    fun r => r.finish text.toList

/-- The directive that a clause is. -/
def Clause.directive? : Clause → Option Directive
  | directive d => some d
  | span => none

/-- Read a filter.  One that says nothing shows errors. -/
def Filter.parse (text : String) : Option Filter :=
  ((text.splitOn ",").filter fun part => !part.isEmpty).mapM clause? |>.map fun clauses =>
    if clauses.isEmpty then .upTo 1 else clauses.filterMap Clause.directive?

/-- The filter of the console: the one that is asked for, if it can be read, else the usual one. -/
def Filter.choose (wanted : Option String) (verbose : Bool) : Filter :=
  (wanted.bind Filter.parse).getD (.upTo (if verbose then 4 else 3))

end ConfigPack.Console
