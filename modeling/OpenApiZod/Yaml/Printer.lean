import OpenApiZod.Json.Value
import OpenApiZod.Yaml.CoreSchema
import OpenApiZod.Yaml.Cursor

/-!
# YAML texts of JSON values

Collections are written as blocks, indented by two blanks; a sequence stands in the column of its
key. A text is plain if a reader would take it for that text. Otherwise it stands in single
quotes, a text of several lines in a literal block, and one with unprintable characters in double
quotes.
-/

namespace OpenApiZod.Yaml.Printer

/-! ### Styles -/

/-- A character that needs no escape. -/
def isPrintable (c : Char) : Bool :=
  let n := c.toNat
  n == 0xA || (0x20 ≤ n && n ≤ 0x7E) || (0xA0 ≤ n && n < 0xFFFE && n != 0xFEFF)

/-- The words for truth values of older readers. -/
def truthWords : List String :=
  ["y", "Y", "yes", "Yes", "YES", "n", "N", "no", "No", "NO", "true", "True", "TRUE", "false",
   "False", "FALSE", "on", "On", "ON", "off", "Off", "OFF"]

/-- Whether a plain scalar would be read as something else than its text, by some reader. -/
def readsOtherwise (s : String) : Bool :=
  decide (s ∈ truthWords) || CoreSchema.hasLeadingZero s.toList ||
    match CoreSchema.plain? s with
    | some (.text _) => false
    | _ => true

/-- Characters that start something else than a plain scalar. -/
def opening : List Char :=
  ['#', ',', '[', ']', '\x7b', '\x7d', '&', '*', '!', '|', '>', '\'', '"', '%', '@', '`']

/-- Whether a colon before a blank or a comment after one stands in the text; `before` is the
character in front of it. -/
def hasMark (before : Char) : List Char → Bool
  | [] => false
  | c :: rest =>
    (c == ':' && rest.head?.all isSeparator) || (c == '#' && isSeparator before) || hasMark c rest

/-- Whether the text holds or starts with characters that are marks where they stand. -/
def hasIndicator (cs : List Char) : Bool :=
  match cs with
  | [] => false
  | c :: rest =>
    decide (c ∈ opening) || cs.take 3 == ['-', '-', '-'] || cs.take 3 == ['.', '.', '.'] ||
      ((c == '-' || c == '?') && rest.head?.all isSeparator) || hasMark ' ' cs

/-- Whether two characters that `p` and `q` accept follow each other. -/
def hasPair (p q : Char → Bool) (cs : List Char) : Bool :=
  (cs.zip cs.tail).any fun (a, b) => p a && q b

/-- Whether a text can be a plain scalar. -/
def allowsPlain (cs : List Char) : Bool :=
  cs.all (fun c => isPrintable c && !isBreak c) && cs.head? != some ' ' &&
    cs.getLast? != some ' ' && !hasIndicator cs

/-- Whether a text can stand in single quotes. -/
def allowsSingle (cs : List Char) : Bool :=
  cs.all isPrintable && !hasPair isBreak (· == ' ') cs && !hasPair (· == ' ') isBreak cs

/-- Whether a text can be a literal block. -/
def allowsLiteral (cs : List Char) : Bool :=
  cs.all isPrintable && !hasPair (· == ' ') isBreak cs && cs.getLast? != some ' '

/-! ### Scalars -/

/-- A hexadecimal digit in capitals. -/
def hexDigit (n : Nat) : Char := if n < 10 then Char.ofNat (0x30 + n) else Char.ofNat (0x37 + n)

/-- The last `count` hexadecimal digits of a number. -/
def hexDigits (count n : Nat) : List Char :=
  (List.range count).map fun i => hexDigit (n / Nat.pow 16 (count - 1 - i) % 16)

/-- How a character is written in double quotes. -/
def escape (c : Char) : List Char :=
  let n := c.toNat
  if isPrintable c && !isBreak c && c != '"' && c != '\\' then [c]
  else if n = 0 then ['\\', '0']
  else if n = 0x7 then ['\\', 'a']
  else if n = 0x8 then ['\\', 'b']
  else if n = 0x9 then ['\\', 't']
  else if n = 0xA then ['\\', 'n']
  else if n = 0xB then ['\\', 'v']
  else if n = 0xC then ['\\', 'f']
  else if n = 0xD then ['\\', 'r']
  else if n = 0x1B then ['\\', 'e']
  else if n = 0x22 then ['\\', '"']
  else if n = 0x5C then ['\\', '\\']
  else if n = 0x85 then ['\\', 'N']
  else if n = 0x2028 then ['\\', 'L']
  else if n = 0x2029 then ['\\', 'P']
  else if n ≤ 0xFF then '\\' :: 'x' :: hexDigits 2 n
  else if n ≤ 0xFFFF then '\\' :: 'u' :: hexDigits 4 n
  else '\\' :: 'U' :: hexDigits 8 n

/-- The text in double quotes. -/
def doubleQuoted (cs : List Char) : List Char := '"' :: cs.flatMap escape ++ ['"']

/-- Lines with `indent` blanks before each that is not empty. A line starts at the front if
`starting`. -/
def indented (indent : Nat) (starting : Bool) : List Char → List Char
  | [] => []
  | c :: rest =>
    if isBreak c then c :: indented indent true rest
    else if starting then List.replicate indent ' ' ++ c :: indented indent false rest
    else c :: indented indent false rest

/-- The text in single quotes. A quote is written twice. -/
def singleQuoted (indent : Nat) (cs : List Char) : List Char :=
  let tail := if cs.getLast?.any isBreak then List.replicate indent ' ' else []
  '\'' :: indented indent false (cs.flatMap fun c => if c = '\'' then [c, c] else [c]) ++
    tail ++ ['\'']

/-- The marks after the bar of a literal block: a digit if its indentation cannot be seen, and
how the line breaks at the end are kept. -/
def literalHints (cs : List Char) : List Char :=
  let digit := if cs.head?.any (fun c => c == ' ' || isBreak c) then ['2'] else []
  let keep := match cs.reverse with
    | [] => ['-']
    | [last] => if isBreak last then ['+'] else ['-']
    | last :: before :: _ =>
      if !isBreak last then ['-'] else if isBreak before then ['+'] else []
  digit ++ keep

/-- The text as a literal block. -/
def literal (indent : Nat) (cs : List Char) : List Char :=
  '|' :: literalHints cs ++ '\n' :: indented indent true cs

/-- The scalar of a text, continued in the column `indent`. -/
def scalar (indent : Nat) (s : String) : List Char :=
  let cs := s.toList
  if cs.contains '\n' && s ∉ truthWords then
    if allowsLiteral cs then literal indent cs else doubleQuoted cs
  else if !readsOtherwise s && allowsPlain cs then cs
  else if allowsSingle cs then singleQuoted indent cs
  else doubleQuoted cs

/-- The scalar of a name, which stays on one line. -/
def name (s : String) : List Char :=
  if s.toList.any isBreak then doubleQuoted s.toList else scalar 0 s

/-- A scalar and the end of its line. -/
def line (cs : List Char) : List Char :=
  if cs.getLast?.any isBreak then cs else cs ++ ['\n']

/-! ### Collections -/

/-- Texts with `indent` blanks before each but the first. -/
def aligned (indent : Nat) : List (List Char) → List Char
  | [] => []
  | first :: rest => first ++ rest.flatMap (List.replicate indent ' ' ++ ·)

mutual

/-- The text of a value at the column `indent`, in which the blanks before the first line are
missing. -/
def block (indent : Nat) : Json → List Char
  | .arr [] => ['[', ']', '\n']
  | .obj [] => ['\x7b', '\x7d', '\n']
  | .arr items => aligned indent (entries indent items)
  | .obj members => aligned indent (fields indent members)
  | .str s => line (scalar indent s)
  | v => line v.compact.toList

/-- The texts of the elements of an array, each after a dash. -/
def entries (indent : Nat) : List Json → List (List Char)
  | [] => []
  | v :: rest => ('-' :: ' ' :: block (indent + 2) v) :: entries indent rest

/-- The texts of the members of an object, each after its name. An array is not indented below
its name. -/
def fields (indent : Nat) : List (String × Json) → List (List Char)
  | [] => []
  | (key, v) :: rest =>
    let value := match v with
      | .arr (item :: items) =>
        '\n' :: List.replicate indent ' ' ++ block indent (.arr (item :: items))
      | .obj (member :: members) =>
        '\n' :: List.replicate (indent + 2) ' ' ++ block (indent + 2) (.obj (member :: members))
      | v => ' ' :: block (indent + 2) v
    (name key ++ ':' :: value) :: fields indent rest

end

/-- The text of a document that holds a value. -/
def document (v : Json) : String := String.ofList (block 0 v)

end OpenApiZod.Yaml.Printer
