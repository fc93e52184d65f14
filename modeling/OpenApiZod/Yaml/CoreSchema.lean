import OpenApiZod.Datum
import OpenApiZod.Decimal.Numeral
import OpenApiZod.Yaml.Scalar

/-!
# The types of YAML scalars

What a scalar stands for where its type counts: the core schema for plain scalars, and the tags
of the core types. Leading zeros make digits a text, and so does a number that is too large for a
double-precision one.
-/

namespace OpenApiZod.Yaml

namespace CoreSchema

/-- The spellings of nothing. -/
def isNull (s : String) : Bool := s ∈ ["~", "null", "Null", "NULL"]

/-- The truth value that a text spells. -/
def bool? (s : String) : Option Bool :=
  if s ∈ ["true", "True", "TRUE"] then some true
  else if s ∈ ["false", "False", "FALSE"] then some false
  else none

/-- Whether the text is an optional sign and digits with a needless zero in front. -/
def hasLeadingZero (cs : List Char) : Bool :=
  let digits := match cs with
    | '+' :: rest => rest
    | '-' :: rest => rest
    | all => all
  match digits with
  | '0' :: second :: rest => (second :: rest).all Char.isDigit
  | _ => false

/-- The number that digits spell, in base 16, 8 or 2 after the mark of that base. -/
def magnitude? : List Char → Option Nat
  | '0' :: 'x' :: rest => Decimal.ofDigits? 16 rest
  | '0' :: 'o' :: rest => Decimal.ofDigits? 8 rest
  | '0' :: 'b' :: rest => Decimal.ofDigits? 2 rest
  | cs => if hasLeadingZero cs then none else Decimal.ofDigits? 10 cs

/-- The integer that a text spells, if it is one that 128 bits can hold. -/
def int? (cs : List Char) : Option Int :=
  match cs with
  | '-' :: rest =>
    (magnitude? rest).bind fun n => if n ≤ Nat.pow 2 127 then some (-n) else none
  | '+' :: rest => (magnitude? rest).bind fun n => if n < Nat.pow 2 128 then some n else none
  | rest => (magnitude? rest).bind fun n => if n < Nat.pow 2 128 then some n else none

/-- Whether an integer has a place among typed values. -/
def isRepresentable (n : Int) : Bool :=
  n.natAbs ≤ Nat.pow 2 63 || (0 ≤ n && n.natAbs < Nat.pow 2 64)

/-- The number that digits with a point, an exponent or neither spell. There is a digit before or
after the point. -/
def decimal? (cs : List Char) : Option Binary64 :=
  let (negative, cs) := match cs with
    | '-' :: rest => (true, rest)
    | '+' :: '-' :: _ => (false, [])
    | '+' :: rest => (false, rest)
    | rest => (false, rest)
  let (whole, rest) := Decimal.spanDigits cs
  let (fraction, rest) := match rest with
    | '.' :: rest => Decimal.spanDigits rest
    | rest => ([], rest)
  if whole.isEmpty && fraction.isEmpty then none
  else
    match rest with
    | [] => some (Decimal.toBinary64 negative whole fraction 0)
    | rest =>
      match Decimal.exponent? rest with
      | some (exponent, []) => some (Decimal.toBinary64 negative whole fraction exponent)
      | _ => none

/-- The double-precision number that a text spells. Only words spell one that is not finite. -/
def float? (s : String) : Option Binary64 :=
  if s ∈ [".inf", ".Inf", ".INF", "+.inf", "+.Inf", "+.INF"] then some (.infinite false)
  else if s ∈ ["-.inf", "-.Inf", "-.INF"] then some (.infinite true)
  else if s ∈ [".nan", ".NaN", ".NAN"] then some .nan
  else (decimal? s.toList).filter Binary64.isFinite

/-- An integer as a typed value, if it has a place among them. -/
def ofInt? (n : Int) : Option Datum := if isRepresentable n then some (.int n) else none

/-- The typed value of a plain scalar without a tag. -/
def plain? (s : String) : Option Datum :=
  if s.isEmpty || isNull s then some .null
  else
    match bool? s, int? s.toList with
    | some b, _ => some (.bool b)
    | none, some n => ofInt? n
    | none, none =>
      if hasLeadingZero s.toList then some (.text s)
      else some (((float? s).map Datum.float).getD (.text s))

/-- Whether a tag is local to an application. -/
def isLocal (tag : Option String) : Bool := tag.any (·.startsWith "!")

/-- The tag of the core type of that name. -/
def coreTag (name : String) : String := "tag:yaml.org,2002:" ++ name

/-- The typed value of a scalar. A tag of a core type asks for a spelling of that type, a local
tag has no meaning, and any other tag makes a text. -/
def datum? (tag : Option String) (style : Style) (s : String) : Option Datum :=
  match tag with
  | none => if style = .plain then plain? s else some (.text s)
  | some tag =>
    if tag = coreTag "bool" then (bool? s).map .bool
    else if tag = coreTag "int" then (int? s.toList).bind ofInt?
    else if tag = coreTag "float" then (float? s).map .float
    else if tag = coreTag "null" then if isNull s then some .null else none
    else if isLocal tag then none
    else some (.text s)

end CoreSchema

end OpenApiZod.Yaml
