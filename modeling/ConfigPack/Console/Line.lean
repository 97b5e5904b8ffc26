import ConfigPack.Console.Severity

/-!
# Lines

How a line of the log looks on the console, and how it looks in the log file: with the time, and
without the sequences that set colours.
-/

namespace ConfigPack.Console

/-- The text that ends colours. -/
def reset : String := "\x1b[0m"

/-- A text in a colour. -/
def styled (style text : String) : String := "\x1b[" ++ style ++ "m" ++ text ++ reset

/-- A line on the console. -/
def line (level : LogLevel) (text : String) : String :=
  match level with
  | .error => styled "31" "ERROR" ++ " " ++ text
  | .warn => styled "33" "WARN" ++ "  " ++ text
  | .stage => styled "1;35" "🚀" ++ " " ++ styled "1" text
  | .dryRun => "  " ++ styled "33" "[DRY RUN]" ++ " " ++ text
  | .info => "  " ++ text
  | .debug => "  " ++ styled "2" text
  | .glob => "  " ++ styled "2" text

/-! ## The log file -/

/-- Whether a character ends a control sequence. -/
def endsSequence (c : Char) : Bool := '@' ≤ c && c ≤ '~'

/-- Where a walk over a text stands with its control sequences. -/
inductive Control where
  /-- In plain text. -/
  | outside
  /-- Behind an escape character. -/
  | escaped
  /-- Inside a sequence. -/
  | inside
deriving DecidableEq, Repr

/-- The characters that are in no control sequence: an escape character takes the next one with it,
and after a bracket all up to the first that ends a sequence. -/
def plainFrom : Control → List Char → List Char
  | _, [] => []
  | .outside, c :: rest =>
    if c = '\x1b' then plainFrom .escaped rest else c :: plainFrom .outside rest
  | .escaped, c :: rest => plainFrom (if c = '[' then .inside else .outside) rest
  | .inside, c :: rest => plainFrom (if endsSequence c then .outside else .inside) rest

/-- A text without its control sequences. -/
def plain (text : String) : String := String.ofList (plainFrom .outside text.toList)

/-- The mark before a line in the log file. -/
def fileMark : LogLevel → String
  | .stage => "==> "
  | .dryRun => "    [dry run] "
  | .error => "    [error] "
  | .warn => "    [warn] "
  | .debug => "    [debug] "
  | .glob => "    [debug] "
  | .info => "    "

/-- A line in the log file. -/
def fileLine (time : String) (level : LogLevel) (text : String) : String :=
  s!"[{time}] " ++ fileMark level ++ plain text ++ "\n"

/-- The rule above and below the head of a log file. -/
def fileRule : String := "==========================================\n"

/-- The head of a log file. -/
def fileHead (version command moment : String) : String :=
  fileRule ++ s!"config-rocket dev-{version} {command} {moment}\n" ++ fileRule

end ConfigPack.Console
