import Cron.Text.Character
import Cron.Text.Pieces

/-!
Addresses of requests: a path, and after a question mark the texts that are given by name. An
escape is a percent sign with two hexadecimal digits.
-/
namespace Cron

/-- An address: its path, and the texts that it gives by name. -/
structure Address where
  path : String
  query : List (String × String)
deriving Repr, DecidableEq

namespace Address

def byte? (a b : Char) : Option Nat := do
  let a ← Text.hexValue? a
  let b ← Text.hexValue? b
  some (16 * a + b)

/-- A path with letters in place of their escapes. An escape of anything else stands for itself. -/
def plainPath : List Char → List Char
  | '%' :: a :: b :: rest =>
    match byte? a b with
    | some n =>
      if (Char.ofNat n).isAlpha then Char.ofNat n :: plainPath rest
      else '%' :: plainPath (a :: b :: rest)
    | none => '%' :: plainPath (a :: b :: rest)
  | c :: rest => c :: plainPath rest
  | [] => []

/-- The bytes of a text that is given: escapes stand for bytes, and a plus sign for a blank. -/
def bytesOf : List Char → List UInt8
  | '%' :: a :: b :: rest =>
    match byte? a b with
    | some n => n.toUInt8 :: bytesOf rest
    | none => 37 :: bytesOf (a :: b :: rest)
  | '+' :: rest => 32 :: bytesOf rest
  | c :: rest => (String.singleton c).toUTF8.toList ++ bytesOf rest
  | [] => []

/-- A text that is given, without escapes if they can be read. -/
def plainText (cs : List Char) : String :=
  (String.fromUTF8? ⟨(bytesOf cs).toArray⟩).getD (String.ofList cs)

def queryOf (cs : List Char) : List (String × String) :=
  ((Text.pieces '&' cs).filter fun piece => !piece.isEmpty).map fun piece =>
    let (name, value) := (Text.cut? '=' piece).getD (piece, [])
    (plainText name, plainText value)

/-- An address without the blanks in front of it, and without tabs and line ends. -/
def tidied (cs : List Char) : List Char :=
  (cs.dropWhile fun c => c.toNat ≤ 32).filter fun c => c ≠ '\t' ∧ c ≠ '\n' ∧ c ≠ '\r'

/-- An address without the name of a machine, which two slashes introduce. -/
def dropMachine : List Char → List Char
  | '/' :: '/' :: rest => rest.dropWhile fun c => c ≠ '/' ∧ c ≠ '?' ∧ c ≠ '#'
  | cs => cs

/-- The address of a text. What a number sign introduces is no part of it. -/
def ofText (s : String) : Address :=
  let cs := (dropMachine (tidied s.toList)).takeWhile (· ≠ '#')
  let (path, query) := (Text.cut? '?' cs).getD (cs, [])
  ⟨String.ofList (plainPath path), queryOf query⟩

end Address

end Cron
