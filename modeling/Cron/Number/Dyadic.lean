/-!
Binary fractions with 53 significant bits, the numbers that a double holds. Quotients are rounded
to the nearest of them, a tie to the even one.
-/
namespace Cron.Number

/-- The number `significand * 2 ^ exponent`. -/
structure Dyadic where
  significand : Int
  exponent : Int
deriving Repr, DecidableEq

/-- The nearest natural number to a quotient; a tie goes to the even one. -/
def roundQuotient (num den : Nat) : Nat :=
  let q := num / den
  let twice := 2 * (num % den)
  if twice < den then q else if den < twice then q + 1 else q + q % 2

/-- The quotient divided by a power of two, again as a quotient. -/
def unscale (num den : Nat) (exponent : Int) : Nat × Nat :=
  if 0 ≤ exponent then (num, den * Nat.pow 2 exponent.toNat)
  else (num * Nat.pow 2 (-exponent).toNat, den)

def minExponent : Int := -1074

/-- The exponent at which a quotient has 53 bits before the point, or the least one. -/
def exponentOf (num den : Nat) : Int :=
  let guess : Int := (num.log2 : Int) - den.log2 - 52
  let (a, b) := unscale num den guess
  max (if a / b < Nat.pow 2 52 then guess - 1 else guess) minExponent

/-- The binary fraction nearest to a quotient of natural numbers. -/
def nearestNat (num den : Nat) : Dyadic :=
  if num = 0 then ⟨0, 0⟩
  else
    let exponent := exponentOf num den
    let (a, b) := unscale num den exponent
    let significand := roundQuotient a b
    if significand = Nat.pow 2 53 then ⟨Nat.pow 2 52, exponent + 1⟩ else ⟨significand, exponent⟩

def nearest (num : Int) (den : Nat) : Dyadic :=
  if num < 0 then
    let x := nearestNat num.natAbs den
    ⟨-x.significand, x.exponent⟩
  else nearestNat num.natAbs den

namespace Dyadic

def toQuotient (x : Dyadic) : Int × Nat :=
  if 0 ≤ x.exponent then (x.significand * Nat.pow 2 x.exponent.toNat, 1)
  else (x.significand, Nat.pow 2 (-x.exponent).toNat)

def floor (x : Dyadic) : Int := x.toQuotient.1.fdiv x.toQuotient.2

/-- The integer part: what is left when the fraction is cut off. -/
def truncate (x : Dyadic) : Int := x.toQuotient.1.tdiv x.toQuotient.2

def isInteger (x : Dyadic) : Bool := x.toQuotient.1 % x.toQuotient.2 == 0

def divNat (x : Dyadic) (n : Nat) : Dyadic := nearest x.toQuotient.1 (x.toQuotient.2 * n)

end Dyadic

end Cron.Number
