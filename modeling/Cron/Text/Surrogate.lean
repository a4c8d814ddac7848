/-!
Texts with halves of pairs of sixteen bits. A half that stands alone is no character. A text holds
it as two characters: a mark, which is not assigned to any use, and a private character whose
number ends in the same four hexadecimal digits. The mark itself is written twice. So every row of
characters and halves has a text, and it is found again in that text.
-/
namespace Cron.Text

inductive Sign
  | char (c : Char)
  | half (n : Nat)
deriving Repr, DecidableEq

/-- Whether a unit of sixteen bits is half of a pair. -/
def isHalf (n : Nat) : Bool := 55296 ≤ n && n < 57344

def halfMark : Char := Char.ofNat 131070

def isHalfMark (c : Char) : Bool := c.toNat == 131070

/-- The character that carries a half, after the mark. -/
def carrier (half : Nat) : Char := Char.ofNat (1048576 + half)

/-- The half that a character carries after the mark. -/
def carried? (c : Char) : Option Nat :=
  if c.toNat / 65536 == 16 && isHalf (c.toNat % 65536) then some (c.toNat % 65536) else none

namespace Sign

def ofUnit (n : Nat) : Sign := if isHalf n then half n else char (Char.ofNat n)

def write : Sign → List Char
  | char c => if isHalfMark c then [c, c] else [c]
  | half n => [halfMark, carrier n]

end Sign

/-- The signs of a text. A mark that nothing is made of stands for itself. -/
def signs : List Char → List Sign
  | [] => []
  | [c] => [.char c]
  | c :: d :: rest =>
    if !isHalfMark c then .char c :: signs (d :: rest)
    else if isHalfMark d then .char d :: signs rest
    else
      match carried? d with
      | some n => .half n :: signs rest
      | none => .char c :: signs (d :: rest)

end Cron.Text
