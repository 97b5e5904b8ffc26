import ConfigPack.Number.Binary64

/-!
# Shortest decimals

The shortest decimal of a floating-point number has the fewest digits among the decimals that read
back as that number, and is the nearest of those.  On the grid of `n` significant digits only the
two neighbours of the exact value can be nearest, so the search tries both on the grids of
1, 2, … 17 digits and stops at the first grid with a hit.
-/

namespace ConfigPack

/-- The positive decimal `digits · 10 ^ exponent`. -/
structure Decimal where
  /-- The significant digits as a whole number. -/
  digits : Nat
  /-- The power of ten of the last digit. -/
  exponent : Int
deriving DecidableEq, Repr

namespace Decimal

/-- The decimal as a numerator over a denominator. -/
def ratio (d : Decimal) : Nat × Nat :=
  match d.exponent with
  | .ofNat e => (d.digits * Nat.pow 10 e, 1)
  | .negSucc e => (d.digits, Nat.pow 10 (e + 1))

/-- The same decimal without zeros at its end; `fuel` bounds how many are dropped. -/
def dropZeros (fuel : Nat) (d : Decimal) : Decimal :=
  match fuel with
  | 0 => d
  | fuel + 1 =>
    if d.digits ≠ 0 ∧ d.digits % 10 = 0 then dropZeros fuel ⟨d.digits / 10, d.exponent + 1⟩ else d

end Decimal

/-- The power of ten of the leading digit of `num / den`, both positive. -/
def leadingPower (num den : Nat) : Int :=
  if den ≤ num then ((Nat.toDigits 10 (num / den)).length : Int) - 1
  else
    let n := (Nat.toDigits 10 (den / num)).length
    if num * Nat.pow 10 (n - 1) ≥ den then 1 - (n : Int) else -(n : Int)

namespace Binary64

/-- A multiple of a quarter of the last significant bit, as a numerator over a denominator. -/
def quarters (x : Binary64) (count : Nat) : Nat × Nat :=
  match x.exponent - 2 with
  | .ofNat e => (count * Nat.pow 2 e, 1)
  | .negSucc e => (count, Nat.pow 2 (e + 1))

/-- Whether a decimal reads back as the magnitude of `x`: it lies between the midpoints to the
neighbours of `x`, and may be a midpoint when the significand is even. -/
def accepts (x : Binary64) (d : Decimal) : Bool :=
  let m := x.significand
  let below := if m = Nat.pow 2 52 ∧ x.biasedExponent > 1 then 4 * m - 1 else 4 * m - 2
  let (lo, unit) := x.quarters below
  let (hi, _) := x.quarters (4 * m + 2)
  let (n, k) := d.ratio
  if m % 2 = 0 then lo * k ≤ n * unit ∧ n * unit ≤ hi * k else lo * k < n * unit ∧ n * unit < hi * k

/-- The decimal of `count` digits that reads back as the magnitude of `x` and is nearest to it. -/
def decimalOf? (x : Binary64) (count : Nat) : Option Decimal :=
  let (num, den) := x.ratio
  let e := leadingPower num den - (count : Int) + 1
  let (n, d) := match e with
    | .ofNat e => (num, den * Nat.pow 10 e)
    | .negSucc e => (num * Nat.pow 10 (e + 1), den)
  let q := n / d
  let twice := 2 * (n % d)
  let lower : Decimal := ⟨q, e⟩
  let upper : Decimal := ⟨q + 1, e⟩
  let preferLower := twice < d || (twice == d && q % 2 == 0)
  if x.accepts lower && (preferLower || !x.accepts upper) then some lower
  else if x.accepts upper then some upper
  else none

/-- The shortest decimal of the magnitude of a finite number other than zero. -/
def shortest (x : Binary64) : Decimal :=
  let found := (List.range 17).findSome? fun i => x.decimalOf? (i + 1)
  (found.getD ⟨0, 0⟩).dropZeros 20

end Binary64

/-- How a number is laid out as text. -/
structure NumberLayout where
  /-- What stands between the exponent mark and an exponent that is not negative. -/
  exponentPlus : String
  /-- The text of positive infinity. -/
  infinity : String
  /-- The text of negative infinity. -/
  negativeInfinity : String
  /-- The text of a value that is not a number. -/
  nan : String

namespace NumberLayout

/-- A positive decimal as text: positional while the point falls less than five places before the
digits or within sixteen places, otherwise with one leading digit and an exponent. -/
def decimal (layout : NumberLayout) (d : Decimal) : String :=
  let digits := Nat.toDigits 10 d.digits
  let point : Int := (digits.length : Int) + d.exponent
  if 0 ≤ d.exponent ∧ point ≤ 16 then
    String.ofList (digits ++ List.replicate d.exponent.toNat '0') ++ ".0"
  else if 0 < point ∧ point ≤ 16 then
    String.ofList (digits.take point.toNat) ++ "." ++ String.ofList (digits.drop point.toNat)
  else if -5 < point ∧ point ≤ 0 then
    "0." ++ String.ofList (List.replicate (-point).toNat '0' ++ digits)
  else
    let mantissa := match digits with
      | [] => ""
      | [c] => String.ofList [c]
      | c :: rest => String.ofList (c :: '.' :: rest)
    let power := point - 1
    let mark := if power < 0 then "e-" else "e" ++ layout.exponentPlus
    mantissa ++ mark ++ toString power.natAbs

/-- A number as text. -/
def render (layout : NumberLayout) (x : Binary64) : String :=
  if x.isNaN then layout.nan
  else if x.isInfinite then if x.isNegative then layout.negativeInfinity else layout.infinity
  else
    let sign := if x.isNegative then "-" else ""
    if x.isZero then sign ++ "0.0" else sign ++ layout.decimal x.shortest

end NumberLayout

end ConfigPack
