/-!
Texts cut at a separator, and texts put together: joined, and filled up to a width.
-/
namespace Cron.Text

/-- The pieces between separators, where `piece` holds the characters read so far, last one
first. -/
def piecesFrom (separator : Char) (piece : List Char) : List Char → List (List Char)
  | [] => [piece.reverse]
  | c :: rest =>
    if c = separator then piece.reverse :: piecesFrom separator [] rest
    else piecesFrom separator (c :: piece) rest

/-- The pieces of a text between separators: one more than there are separators. -/
def pieces (separator : Char) (cs : List Char) : List (List Char) := piecesFrom separator [] cs

/-- The text before the first separator and the text after it, if there is one. -/
def cut? (separator : Char) (cs : List Char) : Option (List Char × List Char) :=
  match cs.dropWhile (· != separator) with
  | [] => none
  | _ :: rest => some (cs.takeWhile (· != separator), rest)

/-- The text, with a character repeated before it up to a width. -/
def padLeft (width : Nat) (fill : Char) (s : String) : String :=
  String.ofList (List.replicate (width - s.length) fill) ++ s

def padRight (width : Nat) (s : String) : String :=
  s ++ String.ofList (List.replicate (width - s.length) ' ')

/-- A number with zeros before it up to a width; the minus sign stands first and counts. -/
def padNumber (width : Nat) (n : Int) : String :=
  if n < 0 then "-" ++ padLeft (width - 1) '0' (toString n.natAbs)
  else padLeft width '0' (toString n.natAbs)

def joined (separator : String) (texts : List String) : String := separator.intercalate texts

end Cron.Text
