import Cron.Number.Dyadic

/-!
Numbers with a fraction or an exponent: binary fractions, the two infinities, and the value that is
not a number. A decimal is read as the nearest binary fraction, and a binary fraction is shown with
the fewest digits that read back.
-/
namespace Cron.Number

/-- A number that a double holds. The size of a finite one is not negative. -/
inductive Real
  | nan
  | infinite (negative : Bool)
  | finite (negative : Bool) (size : Dyadic)
deriving Repr, DecidableEq

namespace Real

/-- The size of a decimal `digits * 10 ^ exponent`, or nothing if it exceeds every double. A
decimal far from every double is settled by its first digit alone. -/
def sizeOfDecimal? (digits : Nat) (exponent : Int) : Option Dyadic :=
  let firstPlace := (Nat.toDigits 10 digits).length + exponent
  if digits = 0 || firstPlace < -330 then some ⟨0, 0⟩
  else if 310 < firstPlace then none
  else
    let size :=
      if 0 ≤ exponent then nearestNat (digits * Nat.pow 10 exponent.toNat) 1
      else nearestNat digits (Nat.pow 10 (-exponent).toNat)
    if 971 < size.exponent then none else some size

def ofDecimal (negative : Bool) (digits : Nat) (exponent : Int) : Real :=
  match sizeOfDecimal? digits exponent with
  | some size => finite negative size
  | none => infinite negative

def isZero : Real → Bool
  | finite _ size => size.significand == 0
  | _ => false

/-- The place of the first digit of a positive quotient: `p` with `10 ^ p ≤ num / den`, largest. -/
def firstPlace (num den : Nat) : Int :=
  if den ≤ num then ((Nat.toDigits 10 (num / den)).length : Int) - 1
  else
    let shift := (Nat.toDigits 10 den).length - (Nat.toDigits 10 num).length
    if den ≤ num * Nat.pow 10 shift then -(shift : Int) else -((shift : Int) + 1)

/-- One of the two decimals of `count` digits around a quotient that is read as the given number:
the nearer one where both are. -/
def decimalOfCount? (size : Dyadic) (count : Nat) : Option (Nat × Int) :=
  let (num, den) := (size.toQuotient.1.toNat, size.toQuotient.2)
  let unit : Int := firstPlace num den - count + 1
  let (a, b) :=
    if 0 ≤ unit then (num, den * Nat.pow 10 unit.toNat)
    else (num * Nat.pow 10 (-unit).toNat, den)
  let below := a / b
  let reads := fun digits => decide (sizeOfDecimal? digits unit = some size)
  match reads below, reads (below + 1) with
  | true, true => some (roundUp a b below, unit)
  | true, false => some (below, unit)
  | false, true => some (below + 1, unit)
  | false, false => none
where
  /-- The nearer of the two neighbours, the even one in a tie. -/
  roundUp (a b below : Nat) : Nat :=
    let twice := 2 * (a % b)
    if twice < b then below else if b < twice then below + 1 else below + below % 2

/-- The shortest decimal that is read as a positive number: its digits and the place of the
last. -/
def shortestDecimal (size : Dyadic) : Nat × Int :=
  ((List.range 17).findSome? fun n => decimalOfCount? size (n + 1)).getD (0, 0)

/-- Digits with a point after the first `places` of them, and at least one digit on either side. -/
def positional (digits : List Char) (places : Int) : List Char :=
  if places ≤ 0 then
    '0' :: '.' :: (List.replicate (-places).toNat '0' ++ digits)
  else if digits.length ≤ places then
    digits ++ List.replicate (places.toNat - digits.length) '0' ++ ['.', '0']
  else digits.take places.toNat ++ '.' :: digits.drop places.toNat

/-- Digits with a point after the first, and the exponent in at least two digits. -/
def scientific (digits : List Char) (exponent : Int) : List Char :=
  let fraction := digits.drop 1
  let shown := Nat.toDigits 10 exponent.natAbs
  digits.take 1 ++ (if fraction.isEmpty then [] else '.' :: fraction) ++ 'e' ::
    (if exponent < 0 then '-' else '+') :: (if shown.length < 2 then '0' :: shown else shown)

/-- The digits of a number without the zeros at its end, and how many those are. -/
def stripZeros (digits : List Char) : List Char × Nat :=
  let kept := (digits.reverse.dropWhile (· == '0')).reverse
  (kept, digits.length - kept.length)

/-- The text of a size: positional from `0.0001` up to `10 ^ 16`, with an exponent beyond. -/
def sizeText (size : Dyadic) : List Char :=
  if size.significand = 0 then ['0', '.', '0']
  else
    let (number, unit) := shortestDecimal size
    let (digits, zeros) := stripZeros (Nat.toDigits 10 number)
    let places : Int := unit + zeros + digits.length
    if -4 < places && places ≤ 16 then positional digits places
    else scientific digits (places - 1)

def text : Real → String
  | nan => "nan"
  | infinite negative => if negative then "-inf" else "inf"
  | finite negative size => String.ofList ((if negative then ['-'] else []) ++ sizeText size)

end Real

end Cron.Number
