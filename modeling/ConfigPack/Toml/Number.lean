import ConfigPack.Json.Basic
import ConfigPack.Toml.Text

/-!
# Numbers in TOML

Digits may be set apart by single underscores.  A whole number has 64 bits; a floating-point number
that is not finite is null in a document, but one that overflows upwards is refused.
-/

namespace ConfigPack.Toml

/-- Take the digits behind a first one; an underscore must stand between two digits. -/
def takeMoreDigits (isDigit : Char → Bool) : List Char → Except Fault (List Char × List Char)
  | '_' :: c :: rest =>
    if isDigit c then do
      let (digits, rest) ← takeMoreDigits isDigit rest
      return (c :: digits, rest)
    else .error .badDigits
  | ['_'] => .error .badDigits
  | c :: rest =>
    if isDigit c then do
      let (digits, rest) ← takeMoreDigits isDigit rest
      return (c :: digits, rest)
    else .ok ([], c :: rest)
  | [] => .ok ([], [])

/-- Take digits, at least one. -/
def takeDigits (isDigit : Char → Bool) (text : List Char) : Except Fault (List Char × List Char) :=
  match text with
  | c :: rest =>
    if isDigit c then do
      let (digits, rest) ← takeMoreDigits isDigit rest
      return (c :: digits, rest)
    else .error .badDigits
  | [] => .error .badDigits

/-- Take the digits before the point; a zero stands alone. -/
def takeWhole (text : List Char) : Except Fault (List Char × List Char) :=
  match text with
  | '0' :: rest => .ok (['0'], rest)
  | _ => takeDigits Char.isDigit text

/-- Read a whole number in a base behind its mark. -/
def readMarked (radix : Nat) (text : List Char) : Except Fault (Json × List Char) := do
  let (digits, rest) ← takeDigits (fun c => (Literal.digitBelow? radix c).isSome) text
  match Literal.natural? radix digits with
  | some n =>
    if n < Nat.pow 2 63 then return (.number (.int n), rest) else throw .numberTooLarge
  | none => throw .badDigits

/-- Take an exponent if one begins here. -/
def takeExponent (text : List Char) : Except Fault (List Char × List Char) :=
  match text with
  | c :: rest =>
    if c = 'e' ∨ c = 'E' then do
      let (sign, rest) := match rest with
        | '+' :: rest => (['+'], rest)
        | '-' :: rest => (['-'], rest)
        | rest => ([], rest)
      let (digits, rest) ← takeDigits Char.isDigit rest
      return (c :: sign ++ digits, rest)
    else .ok ([], text)
  | [] => .ok ([], [])

/-- Take a point and the digits behind it if a point stands here. -/
def takePart (text : List Char) : Except Fault (List Char × List Char) :=
  match text with
  | '.' :: rest => do
    let (digits, rest) ← takeDigits Char.isDigit rest
    return ('.' :: digits, rest)
  | _ => .ok ([], text)

/-- The document of a floating-point number. -/
def floatJson (x : Binary64) : Except Fault Json :=
  if x.isFinite then .ok (.number (.float x))
  else if x.isNegative then .ok .null
  else .error .numberTooLarge

/-- Read a decimal behind its sign. -/
def readDecimal (negative : Bool) (text : List Char) : Except Fault (Json × List Char) := do
  let (whole, rest) ← takeWhole text
  let (part, rest) ← takePart rest
  let (exponent, rest) ← takeExponent rest
  if part.isEmpty && exponent.isEmpty then
    let n := Literal.decimalNatural whole
    if negative then
      if n ≤ Nat.pow 2 63 then return (.number (.int (-(n : Int))), rest) else throw .numberTooLarge
    else if n < Nat.pow 2 63 then return (.number (.int n), rest)
    else throw .numberTooLarge
  else
    let digits := whole ++ part ++ exponent
    match Literal.decimal? (if negative then '-' :: digits else digits) with
    | some x => return (← floatJson x, rest)
    | none => throw .badDigits

/-- Read a number behind its sign. -/
def readSigned (negative : Bool) (text : List Char) : Except Fault (Json × List Char) :=
  match text with
  | 'i' :: 'n' :: 'f' :: rest => .ok (.null, rest)
  | 'n' :: 'a' :: 'n' :: rest => .ok (.null, rest)
  | _ => readDecimal negative text

/-- Read a number. -/
def readNumber (text : List Char) : Except Fault (Json × List Char) :=
  match text with
  | '+' :: rest => readSigned false rest
  | '-' :: rest => readSigned true rest
  | '0' :: 'x' :: rest => readMarked 16 rest
  | '0' :: 'o' :: rest => readMarked 8 rest
  | '0' :: 'b' :: rest => readMarked 2 rest
  | _ => readSigned false text

end ConfigPack.Toml
