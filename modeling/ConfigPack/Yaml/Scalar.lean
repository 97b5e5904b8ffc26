import ConfigPack.Number.Literal
import ConfigPack.Yaml.Basic
import ConfigPack.Yaml.Fault

/-!
# Plain scalars

What an unquoted text stands for: null, a boolean, a whole number, a floating-point number, or
itself.  Whole numbers may be written in base sixteen, eight, two and ten; one with a leading zero
is a text.
-/

namespace ConfigPack.Yaml

/-- What a plain scalar stands for. -/
inductive Plain where
  | null
  | bool (value : Bool)
  | int (value : Int)
  /-- A whole number of more than 64 bits. -/
  | wideInt
  | float (value : Binary64)
  | text
deriving DecidableEq, Repr

namespace Plain

/-- Whether a text stands for null. -/
def isNull (s : String) : Bool := s == "null" || s == "Null" || s == "NULL" || s == "~"

/-- The boolean that a text stands for. -/
def bool? (s : String) : Option Bool :=
  if s = "true" ∨ s = "True" ∨ s = "TRUE" then some true
  else if s = "false" ∨ s = "False" ∨ s = "FALSE" then some false
  else none

/-- Whether a text, its sign apart, has more than one digit, nothing else, and begins with zero. -/
def isZeroLed (chars : List Char) : Bool :=
  let digits := match chars with
    | '+' :: rest => rest
    | '-' :: rest => rest
    | rest => rest
  digits.length > 1 && digits.head? == some '0' && digits.all Char.isDigit

/-- Whether characters begin with a sign. -/
def isSigned (chars : List Char) : Bool := chars.head? == some '+' || chars.head? == some '-'

/-- The magnitude behind the mark of a base. -/
def marked? : List Char → Option Nat
  | '0' :: 'x' :: rest => Literal.natural? 16 rest
  | '0' :: 'o' :: rest => Literal.natural? 8 rest
  | '0' :: 'b' :: rest => Literal.natural? 2 rest
  | _ => none

/-- The whole number that a text without a minus stands for. -/
def natural? (chars : List Char) : Option Nat :=
  let unsigned := match chars with
    | '+' :: rest => rest
    | rest => rest
  match marked? unsigned with
  | some n => some n
  | none => if isSigned unsigned || isZeroLed chars then none else Literal.natural? 10 unsigned

/-- The magnitude of the whole number that a text with a minus stands for. -/
def negative? (chars : List Char) : Option Nat :=
  match chars with
  | '-' :: rest =>
    match marked? rest with
    | some n => some n
    | none => if isZeroLed chars then none else Literal.natural? 10 rest
  | _ => none

/-- The whole number that a text stands for.  One that 128 bits do not hold is not whole. -/
def int? (chars : List Char) : Option Plain :=
  match natural? chars, negative? chars with
  | some n, _ =>
    if n < Nat.pow 2 64 then some (.int n) else if n < Nat.pow 2 128 then some .wideInt else none
  | none, some n =>
    if n ≤ Nat.pow 2 63 then some (.int (-(n : Int)))
    else if n ≤ Nat.pow 2 127 then some .wideInt
    else none
  | none, none => none

/-- The floating-point number that a text stands for. -/
def float? (chars : List Char) : Option Binary64 :=
  let s := String.ofList chars
  let unsigned := match chars with
    | '+' :: rest => rest
    | rest => rest
  if chars.head? = some '+' ∧ isSigned unsigned then none
  else
    let u := String.ofList unsigned
    if u = ".inf" ∨ u = ".Inf" ∨ u = ".INF" then some (Binary64.infinity false)
    else if s = "-.inf" ∨ s = "-.Inf" ∨ s = "-.INF" then some (Binary64.infinity true)
    else if s = ".nan" ∨ s = ".NaN" ∨ s = ".NAN" then some Binary64.nan
    else (Literal.decimal? unsigned).filter Binary64.isFinite

/-- What a text stands for when it is not quoted. -/
def ofText (s : String) : Plain :=
  if s.isEmpty || isNull s then .null
  else
    match bool? s with
    | some b => .bool b
    | none =>
      let chars := s.toList
      match int? chars with
      | some n => n
      | none =>
        if isZeroLed chars then .text
        else
          match float? chars with
          | some x => .float x
          | none => .text

end Plain

end ConfigPack.Yaml
