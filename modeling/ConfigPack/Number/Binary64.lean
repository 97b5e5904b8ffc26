/-!
# Binary floating-point numbers of 64 bits

A `Binary64` is a bit pattern: a sign, eleven bits of exponent and fifty-two bits of fraction.  All
arithmetic here goes through exact natural numbers: a result is stated as a quotient of two naturals
and `Binary64.ofRatio` rounds it once, to the nearest pattern and to the even one on a tie.
-/

namespace ConfigPack

/-- A floating-point number, held as its bit pattern. -/
structure Binary64 where
  /-- Sign, biased exponent and fraction, from the highest bit down. -/
  bits : UInt64
deriving DecidableEq, Repr, Inhabited

namespace Binary64

/-- The pattern with the given sign, biased exponent and fraction. -/
def pack (negative : Bool) (exponent fraction : Nat) : Binary64 :=
  ⟨UInt64.ofNat ((if negative then Nat.pow 2 63 else 0) + exponent * Nat.pow 2 52 + fraction)⟩

/-- Zero of the given sign. -/
def zero (negative : Bool) : Binary64 := pack negative 0 0

/-- Infinity of the given sign. -/
def infinity (negative : Bool) : Binary64 := pack negative 2047 0

/-- The quiet value that is not a number. -/
def nan : Binary64 := pack false 2047 (Nat.pow 2 51)

/-- The sign bit. -/
def isNegative (x : Binary64) : Bool := x.bits.toNat ≥ Nat.pow 2 63

/-- The biased exponent. -/
def biasedExponent (x : Binary64) : Nat := x.bits.toNat / Nat.pow 2 52 % 2048

/-- The fraction bits. -/
def fraction (x : Binary64) : Nat := x.bits.toNat % Nat.pow 2 52

/-- Neither infinite nor without a value. -/
def isFinite (x : Binary64) : Bool := x.biasedExponent != 2047

/-- Infinite, of either sign. -/
def isInfinite (x : Binary64) : Bool := x.biasedExponent == 2047 && x.fraction == 0

/-- Without a value. -/
def isNaN (x : Binary64) : Bool := x.biasedExponent == 2047 && x.fraction != 0

/-- Zero, of either sign. -/
def isZero (x : Binary64) : Bool := x.biasedExponent == 0 && x.fraction == 0

/-- The whole number `m` in the value `m · 2 ^ e` of a finite pattern. -/
def significand (x : Binary64) : Nat :=
  if x.biasedExponent = 0 then x.fraction else Nat.pow 2 52 + x.fraction

/-- The exponent `e` in the value `m · 2 ^ e` of a finite pattern. -/
def exponent (x : Binary64) : Int :=
  if x.biasedExponent = 0 then -1074 else (x.biasedExponent : Int) - 1075

/-- The same magnitude with the sign turned. -/
def neg (x : Binary64) : Binary64 :=
  pack (!x.isNegative) x.biasedExponent x.fraction

/-- The magnitude of a finite pattern as a numerator over a denominator. -/
def ratio (x : Binary64) : Nat × Nat :=
  match x.exponent with
  | .ofNat e => (x.significand * Nat.pow 2 e, 1)
  | .negSucc e => (x.significand, Nat.pow 2 (e + 1))

/-- `num / den` scaled by `2 ^ (-e)` and rounded to a whole number, to the even one on a tie. -/
def scaledQuotient (num den : Nat) (e : Int) : Nat :=
  let (n, d) := match e with
    | .ofNat e => (num, den * Nat.pow 2 e)
    | .negSucc e => (num * Nat.pow 2 (e + 1), den)
  let q := n / d
  let twice := 2 * (n % d)
  if twice < d then q else if twice > d then q + 1 else if q % 2 = 0 then q else q + 1

/-- The exponent at which `num / den` has fifty-three significant bits, or the least exponent there
is. -/
def roundingExponent (num den : Nat) : Int :=
  let guess : Int := (num.log2 : Int) - (den.log2 : Int) - 52
  let fits : Bool := match guess with
    | .ofNat e => decide (den * Nat.pow 2 e * Nat.pow 2 52 ≤ num)
    | .negSucc e => decide (den * Nat.pow 2 52 ≤ num * Nat.pow 2 (e + 1))
  max (if fits then guess else guess - 1) (-1074)

/-- The number nearest to `num / den`, the even one on a tie, infinity beyond the greatest. -/
def ofRatio (negative : Bool) (num den : Nat) : Binary64 :=
  if num = 0 then zero negative
  else
    let e := roundingExponent num den
    let q := scaledQuotient num den e
    let (q, e) := if q = Nat.pow 2 53 then (Nat.pow 2 52, e + 1) else (q, e)
    if e > 971 then infinity negative
    else if q < Nat.pow 2 52 then pack negative 0 q
    else pack negative (e + 1075).toNat (q - Nat.pow 2 52)

/-- The number nearest to a natural number. -/
def ofNat (n : Nat) : Binary64 := ofRatio false n 1

/-- The number nearest to `digits · 10 ^ exponent`. -/
def ofDecimal (negative : Bool) (digits : Nat) (exponent : Int) : Binary64 :=
  if digits = 0 then zero negative
  -- The magnitude lies between `2 ^ log2` and its double, which settles the far exponents at once.
  else if exponent > 400 then infinity negative
  else if exponent < -400 - (digits.log2 : Int) then zero negative
  else match exponent with
    | .ofNat e => ofRatio negative (digits * Nat.pow 10 e) 1
    | .negSucc e => ofRatio negative digits (Nat.pow 10 (e + 1))

/-- The rounded product of two finite numbers. -/
def mul (x y : Binary64) : Binary64 :=
  let (a, b) := x.ratio
  let (c, d) := y.ratio
  ofRatio (x.isNegative != y.isNegative) (a * c) (b * d)

/-- The rounded quotient of two finite numbers, the divisor not zero. -/
def div (x y : Binary64) : Binary64 :=
  let (a, b) := x.ratio
  let (c, d) := y.ratio
  ofRatio (x.isNegative != y.isNegative) (a * d) (b * c)

/-- The number nearest to a power of ten. -/
def pow10 (e : Nat) : Binary64 := ofDecimal false 1 e

end Binary64

end ConfigPack
