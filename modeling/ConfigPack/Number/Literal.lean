import ConfigPack.Number.Binary64

/-!
# Numbers in texts

Whole numbers in a radix, and decimals with an optional fraction and exponent, which are rounded
once to the nearest floating-point number.
-/

namespace ConfigPack.Literal

/-- The value of a digit in some radix up to thirty-six. -/
def digitValue? (c : Char) : Option Nat :=
  if c.isDigit then some (c.toNat - '0'.toNat)
  else if 'a' ≤ c ∧ c ≤ 'z' then some (c.toNat - 'a'.toNat + 10)
  else if 'A' ≤ c ∧ c ≤ 'Z' then some (c.toNat - 'A'.toNat + 10)
  else none

/-- The value of a digit below the radix. -/
def digitBelow? (radix : Nat) (c : Char) : Option Nat :=
  match digitValue? c with
  | some d => if d < radix then some d else none
  | none => none

/-- The natural number that digits spell in a radix; there must be at least one. -/
def natural? (radix : Nat) (digits : List Char) : Option Nat :=
  if digits.isEmpty then none
  else (digits.mapM (digitBelow? radix)).map fun values => values.foldl (fun n d => n * radix + d) 0

/-- The natural number of decimal digits, none of them checked. -/
def decimalNatural (digits : List Char) : Nat :=
  digits.foldl (fun n d => n * 10 + (d.toNat - '0'.toNat)) 0

/-- Take a sign from the front; says whether it was a minus. -/
def takeSign : List Char → Bool × List Char
  | '+' :: rest => (false, rest)
  | '-' :: rest => (true, rest)
  | rest => (false, rest)

/-- The exponent behind a decimal: none when it is malformed, zero when there is none. -/
def exponent? : List Char → Option Int
  | [] => some 0
  | c :: rest =>
    if c = 'e' ∨ c = 'E' then
      let (negative, digits) := takeSign rest
      (natural? 10 digits).map fun n => if negative then -(n : Int) else n
    else none

/-- The number of a decimal: a sign, digits around a point, at least one of them, and an
exponent. -/
def decimal? (text : List Char) : Option Binary64 := do
  let (negative, rest) := takeSign text
  let whole := rest.takeWhile Char.isDigit
  let rest := rest.dropWhile Char.isDigit
  let (part, rest) := match rest with
    | '.' :: rest => (rest.takeWhile Char.isDigit, rest.dropWhile Char.isDigit)
    | rest => ([], rest)
  if whole.isEmpty && part.isEmpty then none
  let exponent ← exponent? rest
  return Binary64.ofDecimal negative (decimalNatural (whole ++ part)) (exponent - (part.length : Int))

end ConfigPack.Literal
