import ConfigPack.Dict
import ConfigPack.Glob.Basic
import ConfigPack.Text.Quoted

/-!
# Shapes of globs

Many globs can be decided by a look at one part of a path: at all of it, at its last name, at the
extension, at its beginning or its end.  The others stand for regular expressions over bytes.  The
shapes of the globs of a list, and those expressions, are told in the log.
-/

namespace ConfigPack.Glob

/-! ## Regular expressions -/

/-- The characters with a meaning of their own in a regular expression. -/
def metaCharacters : List Char :=
  ['\\', '.', '+', '*', '?', '(', ')', '|', '[', ']', '\x7b', '\x7d', '^', '$', '#', '&', '-', '~']

/-- A byte in a regular expression. -/
def escapedByte (b : UInt8) : List Char :=
  if b < 128 then
    let c := Char.ofNat b.toNat
    if metaCharacters.contains c then ['\\', c] else [c]
  else '\\' :: 'x' :: Text.hexDigits b.toNat

/-- A character in a regular expression. -/
def escapedChar (c : Char) : String := String.ofList ((bytesOf c).flatMap escapedByte)

/-- A range of a class in a regular expression. -/
def rangeExpression (range : Char × Char) : String :=
  if range.1 = range.2 then escapedChar range.1
  else escapedChar range.1 ++ "-" ++ escapedChar range.2

mutual

/-- The regular expression of a token. -/
def Token.expression : Token → String
  | .literal c => escapedChar c
  | .any => "[^/]"
  | .star => "[^/]*"
  | .deepStart => "(?:/?|.*/)"
  | .deepMiddle => "(?:/|/.*/)"
  | .deepEnd => "/.*"
  | .oneOf negated ranges =>
    "[" ++ (if negated then "^" else "") ++ String.join (ranges.map rangeExpression) ++ "]"
  | .either branches =>
    let parts := (branchExpressions branches).filter fun part => !part.isEmpty
    if parts.isEmpty then "" else "(?:" ++ "|".intercalate parts ++ ")"

/-- The regular expression of tokens. -/
def expressionOf : List Token → String
  | [] => ""
  | token :: rest => token.expression ++ expressionOf rest

/-- The regular expressions of branches. -/
def branchExpressions : List (List Token) → List String
  | [] => []
  | branch :: rest => expressionOf branch :: branchExpressions rest

end

/-- The regular expression of a glob. -/
def expression (glob : List Token) : String :=
  match glob with
  | [.deepStart] => "(?-u)^.*$"
  | _ => "(?-u)^" ++ expressionOf glob ++ "$"

/-! ## Shapes -/

/-- The part of a path by which a glob is decided. -/
inductive Shape where
  /-- All of it is the text. -/
  | literal (text : String)
  /-- Its last name is the text. -/
  | baseName (text : String)
  /-- Its extension is the text. -/
  | fileType (text : String)
  /-- It begins with the text. -/
  | beginning (text : String)
  /-- It ends with the text; `whole` when that may be all of it but the slash in front. -/
  | ending (text : String) (whole : Bool)
  /-- Its extension is the text, and it matches an expression. -/
  | requiredType (text : String)
  /-- Its last name matches an expression. -/
  | baseExpression
  | expression
deriving DecidableEq, Repr

/-- The character of a token that stands for one. -/
def Token.literal? : Token → Option Char
  | .literal c => some c
  | _ => none

/-- The text of tokens that stand for characters. -/
def textOf? (tokens : List Token) : Option String := (tokens.mapM Token.literal?).map String.ofList

/-- The text of tokens, unless it is empty. -/
def nonEmptyText? (tokens : List Token) : Option String :=
  (textOf? tokens).bind fun text => if text.isEmpty then none else some text

/-- Whether a token stays inside the last name of a path. -/
def Token.staysInName : Token → Bool
  | .literal c => c != '/'
  | .any => true
  | .star => true
  | _ => false

/-- The tokens for the last name, of a glob that looks at nothing else. -/
def baseTokens? : List Token → Option (List Token)
  | .deepStart :: rest => if !rest.isEmpty && rest.all Token.staysInName then some rest else none
  | _ => none

/-- The extension of a glob that looks at nothing else. -/
def fileType? : List Token → Option String
  | .deepStart :: .star :: .literal '.' :: rest =>
    (textOf? rest).bind fun text =>
      if text.contains '.' || text.contains '/' then none else some ("." ++ text)
  | _ => none

/-- The beginning of a glob that looks at nothing else. -/
def beginning? (glob : List Token) : Option String :=
  match glob.getLast? with
  | some .deepEnd => (textOf? glob.dropLast).map (· ++ "/")
  | _ => none

/-- The end of a glob that looks at nothing else. -/
def ending? (glob : List Token) : Option Shape :=
  match glob with
  | .deepStart :: .literal c :: rest =>
    (textOf? (.literal c :: rest)).map fun text => .ending ("/" ++ text) true
  | _ => none

/-- The characters at the end of tokens up to the last dot, reversed; none when something else comes
before a dot. -/
def typeAtEnd? : List Token → Option (List Char)
  | .literal '.' :: _ => some ['.']
  | .literal c :: rest => if c = '/' then none else (typeAtEnd? rest).map (c :: ·)
  | _ => none

/-- The extension that a glob asks for. -/
def requiredType? (glob : List Token) : Option String :=
  (typeAtEnd? glob.reverse).map fun text => String.ofList text.reverse

/-- The shape of a glob. -/
def shapeOf (glob : List Token) : Shape :=
  let base := baseTokens? glob
  (((base.bind textOf?).map Shape.baseName)
    <|> ((nonEmptyText? glob).map Shape.literal)
    <|> ((fileType? glob).map Shape.fileType)
    <|> ((beginning? glob).map Shape.beginning)
    <|> (ending? glob)
    <|> ((requiredType? glob).map Shape.requiredType)
    <|> (base.map fun _ => Shape.baseExpression)).getD .expression

/-! ## Notes -/

/-- The number of different texts. -/
def different (texts : List String) : Nat := (sortedTexts texts).length

/-- The texts that shapes look for as a whole. -/
def wholeTexts : Shape → List String
  | .literal text => [text]
  | .ending text true => [(text.drop 1).toString]
  | _ => []

/-- How many globs of a list are of each shape. -/
def tally (shapes : List Shape) : String :=
  let texts (pick : Shape → Option String) := different (shapes.filterMap pick)
  let count (test : Shape → Bool) := (shapes.filter test).length
  let names := texts fun | .baseName text => some text | _ => none
  let types := texts fun | .fileType text => some text | _ => none
  let required := texts fun | .requiredType text => some text | _ => none
  let beginnings := count fun | .beginning _ => true | _ => false
  let endings := count fun | .ending _ _ => true | _ => false
  let bases := count fun | .baseExpression => true | _ => false
  let expressions := count fun | .expression => true | _ => false
  s!"built glob set; {different (shapes.flatMap wholeTexts)} literals, {names} basenames, " ++
    s!"{types} extensions, {beginnings} prefixes, {endings} suffixes, " ++
    s!"{required} required extensions, {bases} basename regexes, {expressions} regexes"

/-- The note on a glob that is decided by an expression. -/
def noteOn (pattern : String) (glob : List Token) : List String :=
  match shapeOf glob with
  | .expression =>
    ["glob \x60Glob(" ++ Text.quoted pattern ++ ")\x60 converted to regex: \x60" ++
      Text.quoted (expression glob) ++ "\x60"]
  | _ => []

/-- The notes on a list of globs with their patterns. -/
def notes (globs : List (String × List Token)) : List String :=
  if globs.isEmpty then []
  else globs.flatMap (fun e => noteOn e.1 e.2) ++ [tally (globs.map fun e => shapeOf e.2)]

end ConfigPack.Glob
