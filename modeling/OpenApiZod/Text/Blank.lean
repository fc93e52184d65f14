/-!
# Blank characters

White space as Unicode defines it (the property `White_Space`), trimming by it, and the lines
and blank-separated parts of a text.
-/

namespace OpenApiZod.Text

/-- A character of white space. -/
def isBlank (c : Char) : Bool :=
  let n := c.toNat
  (0x9 ≤ n && n ≤ 0xD) || n == 0x20 || n == 0x85 || n == 0xA0 || n == 0x1680 ||
    (0x2000 ≤ n && n ≤ 0x200A) || n == 0x2028 || n == 0x2029 || n == 0x202F || n == 0x205F ||
    n == 0x3000

/-- Without white space at the end. -/
def dropBlankEnd (cs : List Char) : List Char :=
  (cs.reverse.dropWhile isBlank).reverse

/-- Without white space at either end. -/
def strip (cs : List Char) : List Char :=
  dropBlankEnd (cs.dropWhile isBlank)

/-- The parts between the characters that `p` accepts, empty ones included. -/
def splitAt (p : Char → Bool) : List Char → List (List Char)
  | [] => [[]]
  | c :: rest =>
    if p c then
      [] :: splitAt p rest
    else
      match splitAt p rest with
      | [] => [[c]]
      | part :: parts => (c :: part) :: parts

/-- The lines of a text without the white space around the text and around each line. A text of
white space alone has no lines. -/
def trimmedLines (s : String) : List String :=
  match strip s.toList with
  | [] => []
  | cs => (splitAt (· == '\n') cs).map fun line => String.ofList (strip line)

/-- The parts of a text between stretches of white space. -/
def blankSeparated (s : String) : List (List Char) :=
  (splitAt isBlank s.toList).filter (· ≠ [])

/-- A text with each stretch of white space made one blank, and none at its ends. -/
def collapseBlanks (s : String) : String :=
  String.ofList ([' '].intercalate (blankSeparated s))

end OpenApiZod.Text
