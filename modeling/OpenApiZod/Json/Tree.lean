import OpenApiZod.Datum
import OpenApiZod.Decimal.Numeral

/-!
# JSON texts

`Tree.read?` reads a JSON text into a tree that keeps what the text says: numbers as numerals,
the members of an object in order and with repeated names. Text may be well formed without
having a value, as a number beyond every double-precision one or an escape for half a character
has none; `Tree.datum?` gives the typed value of a tree all of whose parts have one.
-/

namespace OpenApiZod.Json

/-- A number as it is spelt. -/
inductive Numeral
  | integer (negative : Bool) (magnitude : Nat)
  | decimal (negative : Bool) (whole fraction : List Char) (exponent : Int)
deriving DecidableEq, Repr

/-- A JSON text. A string whose escapes spell no text is `string none`. -/
inductive Tree
  | null
  | bool (b : Bool)
  | number (n : Numeral)
  | string (s : Option String)
  | array (items : List Tree)
  | object (members : List (Option String × Tree))
deriving Repr, Inhabited

/-! ### Numbers -/

/-- The typed value of a number. An integer that fits neither 64 bits with a sign nor 64 bits
without is a floating-point number, and so is `-0`; a number beyond the finite ones has none. -/
def Numeral.datum? : Numeral → Option Datum
  | .integer negative magnitude =>
    if negative then
      if 0 < magnitude ∧ magnitude ≤ Nat.pow 2 63 then some (.int (-magnitude))
      else finite? (.ofDecimal true magnitude 0)
    else
      if magnitude < Nat.pow 2 64 then some (.int magnitude)
      else finite? (.ofDecimal false magnitude 0)
  | .decimal negative whole fraction exponent =>
    finite? (Decimal.toBinary64 negative whole fraction exponent)
where
  /-- A finite number as a typed value. -/
  finite? (x : Binary64) : Option Datum :=
    if x.isFinite then some (.float x) else none

/-- The digits after a decimal point, if the text starts with one, and what follows them. -/
def readFraction? : List Char → Option (Option (List Char) × List Char)
  | '.' :: tail =>
    match Decimal.spanDigits tail with
    | ([], _) => none
    | (ds, rest) => some (some ds, rest)
  | rest => some (none, rest)

/-- The number of the given sign at the front of a text and what follows it. -/
def readMagnitude? (negative : Bool) (cs : List Char) : Option (Numeral × List Char) :=
  let (whole, rest) := Decimal.spanDigits cs
  if whole = [] ∨ (whole.length > 1 ∧ whole.head? = some '0') then
    none
  else
    match readFraction? rest with
    | none => none
    | some (fraction, rest) =>
      match Decimal.exponent? rest with
      | some (e, rest) => some (.decimal negative whole (fraction.getD []) e, rest)
      | none =>
        if rest.head? = some 'e' ∨ rest.head? = some 'E' then none
        else match fraction with
          | some ds => some (.decimal negative whole ds 0, rest)
          | none => some (.integer negative (Decimal.ofDigits 10 whole), rest)

/-- The number at the front of a text and what follows it. -/
def readNumber? : List Char → Option (Numeral × List Char)
  | '-' :: rest => readMagnitude? true rest
  | cs => readMagnitude? false cs

/-! ### Strings -/

/-- A piece of a string: a character, or the UTF-16 unit that an escape names. -/
inductive Piece
  | char (c : Char)
  | unit (n : Nat)
deriving DecidableEq, Repr

/-- The pieces of a string up to its closing quote, and what follows it. -/
def readPieces? : List Char → Option (List Piece × List Char)
  | [] => none
  | '"' :: rest => some ([], rest)
  | '\\' :: 'u' :: a :: b :: c :: d :: rest =>
    match Decimal.ofDigits? 16 [a, b, c, d] with
    | some n => (readPieces? rest).map fun (ps, rest) => (.unit n :: ps, rest)
    | none => none
  | '\\' :: e :: rest =>
    let plain : Option Char := match e with
      | '"' => some '"'
      | '\\' => some '\\'
      | '/' => some '/'
      | 'b' => some '\x08'
      | 'f' => some '\x0C'
      | 'n' => some '\n'
      | 'r' => some '\r'
      | 't' => some '\t'
      | _ => none
    match plain with
    | some c => (readPieces? rest).map fun (ps, rest) => (.char c :: ps, rest)
    | none => none
  | c :: rest =>
    if c.toNat < 0x20 ∨ c = '\\' then none
    else (readPieces? rest).map fun (ps, rest) => (.char c :: ps, rest)

/-- The text that the pieces spell: a high unit and a low one after it make one character, and
neither stands alone. -/
def textOf? : List Piece → Option (List Char)
  | [] => some []
  | .char c :: rest => (textOf? rest).map (c :: ·)
  | .unit high :: .unit low :: rest =>
    if 0xD800 ≤ high ∧ high < 0xDC00 then
      if 0xDC00 ≤ low ∧ low < 0xE000 then
        let n := 0x10000 + (high - 0xD800) * 0x400 + (low - 0xDC00)
        (textOf? rest).map (Char.ofNat n :: ·)
      else none
    else if 0xDC00 ≤ high ∧ high < 0xE000 then none
    else (textOf? (.unit low :: rest)).map (Char.ofNat high :: ·)
  | .unit n :: rest =>
    if 0xD800 ≤ n ∧ n < 0xE000 then none
    else (textOf? rest).map (Char.ofNat n :: ·)

/-- The string whose opening quote has been read, and what follows it. -/
def readString? (cs : List Char) : Option (Option String × List Char) :=
  (readPieces? cs).map fun (pieces, rest) => ((textOf? pieces).map String.ofList, rest)

/-! ### Values -/

/-- Without the white space that JSON allows between tokens. -/
def skipSpace (cs : List Char) : List Char :=
  cs.dropWhile fun c => c = ' ' ∨ c = '\n' ∨ c = '\t' ∨ c = '\r'

/-- What follows a word at the front. -/
def afterWord? (word : String) (cs : List Char) : Option (List Char) :=
  if word.toList.isPrefixOf cs then some (cs.drop word.length) else none

mutual

/-- The value at the front of a text, nested at most `depth` levels deep, and what follows it. -/
def readValue? (depth : Nat) (cs : List Char) : Option (Tree × List Char) :=
  match skipSpace cs with
  | [] => none
  | '"' :: rest => (readString? rest).map fun (s, rest) => (.string s, rest)
  | '[' :: rest =>
    match depth with
    | 0 => none
    | depth + 1 =>
      match skipSpace rest with
      | ']' :: rest => some (.array [], rest)
      | _ => (readItems? depth rest).map fun (items, rest) => (.array items, rest)
  | '\x7b' :: rest =>
    match depth with
    | 0 => none
    | depth + 1 =>
      match skipSpace rest with
      | '\x7d' :: rest => some (.object [], rest)
      | _ => (readMembers? depth rest).map fun (members, rest) => (.object members, rest)
  | 'n' :: rest => (afterWord? "ull" rest).map (.null, ·)
  | 't' :: rest => (afterWord? "rue" rest).map (.bool true, ·)
  | 'f' :: rest => (afterWord? "alse" rest).map (.bool false, ·)
  | rest => (readNumber? rest).map fun (n, rest) => (.number n, rest)
termination_by (depth, cs.length, 0)

/-- The elements of an array up to its closing bracket, and what follows it. -/
def readItems? (depth : Nat) (cs : List Char) : Option (List Tree × List Char) :=
  match readValue? depth cs with
  | none => none
  | some (item, rest) =>
    match skipSpace rest with
    | ']' :: rest => some ([item], rest)
    | ',' :: rest =>
      if rest.length < cs.length then
        (readItems? depth rest).map fun (items, rest) => (item :: items, rest)
      else none
    | _ => none
termination_by (depth, cs.length, 1)

/-- The members of an object up to its closing brace, and what follows it. -/
def readMembers? (depth : Nat) (cs : List Char) : Option (List (Option String × Tree) × List Char) :=
  match skipSpace cs with
  | '"' :: rest =>
    match readString? rest with
    | none => none
    | some (key, rest) =>
      match skipSpace rest with
      | ':' :: rest =>
        if rest.length < cs.length then
          match readValue? depth rest with
          | none => none
          | some (value, rest) =>
            match skipSpace rest with
            | '\x7d' :: rest => some ([(key, value)], rest)
            | ',' :: rest =>
              if rest.length < cs.length then
                (readMembers? depth rest).map fun (members, rest) => ((key, value) :: members, rest)
              else none
            | _ => none
        else none
      | _ => none
  | _ => none
termination_by (depth, cs.length, 1)

end

namespace Tree

/-- How many arrays and objects may stand inside each other. -/
def depthLimit : Nat := 127

/-- Reads a whole text. -/
def read? (s : String) : Option Tree :=
  match readValue? depthLimit s.toList with
  | some (tree, rest) => if skipSpace rest = [] then some tree else none
  | none => none

mutual

/-- The typed value of a tree. -/
def datum? : Tree → Option Datum
  | .null => some .null
  | .bool b => some (.bool b)
  | .number n => n.datum?
  | .string s => s.map .text
  | .array items => (datumItems? items).map .list
  | .object members => (datumMembers? members).map .record

/-- The typed values of the elements of an array. -/
def datumItems? : List Tree → Option (List Datum)
  | [] => some []
  | t :: rest =>
    match datum? t, datumItems? rest with
    | some d, some ds => some (d :: ds)
    | _, _ => none

/-- The typed members of an object. -/
def datumMembers? : List (Option String × Tree) → Option (List (Datum × Datum))
  | [] => some []
  | (key, t) :: rest =>
    match key, datum? t, datumMembers? rest with
    | some k, some d, some ds => some ((.text k, d) :: ds)
    | _, _, _ => none

end

end Tree

end OpenApiZod.Json
