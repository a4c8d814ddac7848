/-!
Sets of characters, given as ascending lists of ranges of code points: the blanks, the decimal
digits of every script, and the marks that stand for a digit without being one, such as raised and
circled numbers.
-/
namespace Cron.Text

/-- Whether a number lies in one of some ascending ranges. -/
def inRanges : List (Nat × Nat) → Nat → Bool
  | [], _ => false
  | (first, last) :: rest, n =>
    if n < first then false else n ≤ last || inRanges rest n

/-- A number in the ranges lies between the ends of one of them. -/
theorem exists_mem_of_inRanges {ranges : List (Nat × Nat)} {n : Nat}
    (h : inRanges ranges n = true) : ∃ r ∈ ranges, r.1 ≤ n ∧ n ≤ r.2 := by
  induction ranges with
  | nil => simp [inRanges] at h
  | cons r rest ih =>
    obtain ⟨first, last⟩ := r
    unfold inRanges at h
    split at h
    · simp at h
    · next hn =>
      simp only [Bool.or_eq_true, decide_eq_true_eq] at h
      cases h with
      | inl hl => exact ⟨(first, last), by simp, by omega, hl⟩
      | inr hr =>
        obtain ⟨r, hr, hb⟩ := ih hr
        exact ⟨r, by simp [hr], hb⟩

/-- The blanks of Unicode, with the four information separators. -/
def blankRanges : List (Nat × Nat) :=
  [
   (9, 13), (28, 32), (133, 133), (160, 160), (5760, 5760), (8192, 8202), (8232, 8233),
   (8239, 8239), (8287, 8287), (12288, 12288)]

def isBlank (c : Char) : Bool := inRanges blankRanges c.toNat

/-- The code points of the digits zero; the other nine digits of each script follow its zero. -/
def zeroDigits : List Nat :=
  [
   48, 1632, 1776, 1984, 2406, 2534, 2662, 2790, 2918, 3046, 3174, 3302, 3430, 3558, 3664, 3792,
   3872, 4160, 4240, 6112, 6160, 6470, 6608, 6784, 6800, 6992, 7088, 7232, 7248, 42528, 43216,
   43264, 43472, 43504, 43600, 44016, 65296, 66720, 68912, 69734, 69872, 69942, 70096, 70384,
   70736, 70864, 71248, 71360, 71472, 71904, 72016, 72784, 73040, 73120, 92768, 92864, 93008,
   120782, 120792, 120802, 120812, 120822, 123200, 123632, 125264, 130032]

def digit? (c : Char) : Option Nat :=
  (zeroDigits.find? fun start => start ≤ c.toNat && c.toNat < start + 10).map fun start =>
    c.toNat - start

/-- Whether a character is a decimal digit, of any script. -/
def isDigit (c : Char) : Bool := (digit? c).isSome

def hexValue? (c : Char) : Option Nat :=
  if '0' ≤ c ∧ c ≤ '9' then some (c.toNat - 48)
  else if 'a' ≤ c ∧ c ≤ 'f' then some (c.toNat - 87)
  else if 'A' ≤ c ∧ c ≤ 'F' then some (c.toNat - 55)
  else none

/-- The raised, lowered, circled and other marks for a digit that no numeral may hold. -/
def digitMarkRanges : List (Nat × Nat) :=
  [
   (178, 179), (185, 185), (4969, 4977), (6618, 6618), (8304, 8304), (8308, 8313), (8320, 8329),
   (9312, 9320), (9332, 9340), (9352, 9360), (9450, 9450), (9461, 9469), (9471, 9471),
   (10102, 10110), (10112, 10120), (10122, 10130), (68160, 68163), (69216, 69224), (69714, 69722),
   (127232, 127242)]

/-- Whether a character is a digit or a mark for one. -/
def isDigitMark (c : Char) : Bool := isDigit c || inRanges digitMarkRanges c.toNat

end Cron.Text
