import ConfigPack.Json.Basic
import ConfigPack.Toml.Text

/-!
# Dates and times in TOML

A date, a time of day, or both with or without an offset.  In a document one stands as an object
with a single field that holds its common form.
-/

namespace ConfigPack.Toml

/-- The number of exactly `count` digits. -/
def digits? (count : Nat) (text : List Char) : Option (Nat × List Char) :=
  let digits := text.take count
  if digits.length = count ∧ digits.all Char.isDigit then
    some (Literal.decimalNatural digits, text.drop count)
  else none

/-- Read the number of two digits between two bounds. -/
def readPair (least greatest : Nat) (text : List Char) : Except Fault (Nat × List Char) :=
  match digits? 2 text with
  | some (n, rest) => if least ≤ n ∧ n ≤ greatest then .ok (n, rest) else .error .badTime
  | none => .error .badTime

/-- Pass over a character. -/
def readMark (mark : Char) (text : List Char) : Except Fault (List Char) :=
  match text with
  | c :: rest => if c = mark then .ok rest else .error .badTime
  | [] => .error .badTime

/-- A number with at least `width` digits. -/
def padded (width n : Nat) : String :=
  let digits := Nat.toDigits 10 n
  String.ofList (List.replicate (width - digits.length) '0' ++ digits)

/-- The number of days of a month. -/
def daysOfMonth (year month : Nat) : Nat :=
  if month = 2 then
    if year % 4 = 0 ∧ (year % 100 ≠ 0 ∨ year % 400 = 0) then 29 else 28
  else if month = 4 ∨ month = 6 ∨ month = 9 ∨ month = 11 then 30
  else 31

/-- Read a date behind its year and the mark after it. -/
def readDate (year : Nat) (text : List Char) : Except Fault (String × List Char) := do
  let (month, rest) ← readPair 1 12 text
  let rest ← readMark '-' rest
  let (day, rest) ← readPair 1 31 rest
  if day > daysOfMonth year month then throw .badTime
  return (s!"{padded 4 year}-{padded 2 month}-{padded 2 day}", rest)

/-- Read the fraction of a second if there is one: nine digits count, zeros at the end do not. -/
def readFraction (text : List Char) : Except Fault (String × List Char) :=
  match text with
  | '.' :: rest =>
    let digits := rest.takeWhile Char.isDigit
    if digits.isEmpty then .error .badTime
    else
      let shown := ((digits.take 9).reverse.dropWhile (· = '0')).reverse
      .ok (if shown.isEmpty then "" else String.ofList ('.' :: shown), rest.dropWhile Char.isDigit)
  | _ => .ok ("", text)

/-- Read a time of day behind its hour and the mark after it. -/
def readTime (hour : Nat) (text : List Char) : Except Fault (String × List Char) := do
  let (minute, rest) ← readPair 0 59 text
  let rest ← readMark ':' rest
  let (second, rest) ← readPair 0 60 rest
  let (fraction, rest) ← readFraction rest
  return (s!"{padded 2 hour}:{padded 2 minute}:{padded 2 second}{fraction}", rest)

/-- Read an offset behind its sign; one of zero has a plus. -/
def readOffset (negative : Bool) (text : List Char) : Except Fault (String × List Char) := do
  let (hour, rest) ← readPair 0 23 text
  let rest ← readMark ':' rest
  let (minute, rest) ← readPair 0 59 rest
  let sign := if negative && (hour != 0 || minute != 0) then "-" else "+"
  return (s!"{sign}{padded 2 hour}:{padded 2 minute}", rest)

/-- Read an offset if one stands here. -/
def readOffset? (text : List Char) : Except Fault (String × List Char) :=
  match text with
  | 'Z' :: rest => .ok ("Z", rest)
  | 'z' :: rest => .ok ("Z", rest)
  | '+' :: rest => readOffset false rest
  | '-' :: rest => readOffset true rest
  | _ => .ok ("", text)

/-- The hour of a time of day that begins here, and the rest behind the mark after it. -/
def beginTime? (text : List Char) : Option (Nat × List Char) :=
  match digits? 2 text with
  | some (hour, ':' :: rest) => if hour ≤ 23 then some (hour, rest) else none
  | _ => none

/-- Read the time of day behind a date if there is one. -/
def readTimeAfterDate (text : List Char) : Except Fault (String × List Char) :=
  match text with
  | c :: rest =>
    if c = 'T' ∨ c = 't' ∨ c = ' ' then
      match beginTime? rest with
      | some (hour, rest) => do
        let (time, rest) ← readTime hour rest
        let (offset, rest) ← readOffset? rest
        return ("T" ++ time ++ offset, rest)
      | none => .ok ("", text)
    else .ok ("", text)
  | [] => .ok ("", text)

/-- Read a date or time if one begins here. -/
def readMoment? (text : List Char) : Except Fault (Option (String × List Char)) := do
  match digits? 4 text with
  | some (year, '-' :: rest) =>
    let (date, rest) ← readDate year rest
    let (time, rest) ← readTimeAfterDate rest
    return some (date ++ time, rest)
  | _ =>
    match beginTime? text with
    | some (hour, rest) => return some (← readTime hour rest)
    | none => return none

/-- The document of a date or time. -/
def momentJson (moment : String) : Json :=
  .object [("$__toml_private_datetime", .string moment)]

end ConfigPack.Toml
