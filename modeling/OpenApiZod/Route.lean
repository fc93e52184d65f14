import OpenApiZod.Text.Words

/-!
# Names from names and routes

An operation or a response is known by a name that the document gives or, without one, by its
route. This module writes such names in the case that a place in the output asks for.
-/

namespace OpenApiZod.Naming

/-- The words of a name; a name without letters and numbers counts as the word `unnamed`. -/
def nameWords (name : String) : List (List Char) :=
  match Text.words name with
  | [] => ["unnamed".toList]
  | ws => ws

/-- The name with a capital at the start of each word. -/
def pascalName (name : String) : String := Text.pascal (nameWords name)

/-- The name with a capital at the start of each word but the first. -/
def camelName (name : String) : String := Text.camel (nameWords name)

/-- The name as a sentence: `UserProfile` is `User profile`. -/
def humanLabel (name : String) : String := Text.sentence (nameWords name)

/-! ### Routes -/

/-- The segments of a path between slashes that are not empty. -/
def pathSegments : List Char → List (List Char)
  | cs => (segments [] cs).filter (· ≠ [])
where
  /-- The parts between slashes; `part` is the current one, last character first. -/
  segments (part : List Char) : List Char → List (List Char)
    | [] => [part.reverse]
    | c :: rest => if c = '/' then part.reverse :: segments [] rest else segments (c :: part) rest

/-- A path parameter such as `\x7bid\x7d`. -/
def isParameter (segment : List Char) : Bool :=
  segment.head? = some '\x7b' && segment.getLast? = some '\x7d'

/-- The word without its English plural ending. -/
def singular (word : List Char) : List Char :=
  match word.reverse with
  | 's' :: 'e' :: 'i' :: c :: stem => ('y' :: c :: stem).reverse
  | 's' :: 'e' :: 's' :: stem => ('s' :: stem).reverse
  | 's' :: 'e' :: 'x' :: stem => ('x' :: stem).reverse
  | 's' :: 'e' :: 'z' :: stem => ('z' :: stem).reverse
  | 's' :: 's' :: _ => word
  | 's' :: c :: stem => (c :: stem).reverse
  | _ => word

/-- The verb that stands for a method: `get` where the route ends in a parameter and `list`
elsewhere, `create` and `update`, or the method itself in small letters. -/
def verb (method : String) (endsInParameter : Bool) : String :=
  match Text.toUpper method with
  | "GET" => if endsInParameter then "get" else "list"
  | "POST" => "create"
  | "PUT" => "update"
  | other => Text.toLower other

/-- The operation name that a method and a path spell: the verb and the path's fixed segments,
the last one in the singular where a parameter follows at the end of the path. -/
def ofRoute (method path : String) : String :=
  let segments := pathSegments path.toList
  let endsInParameter := segments.getLast?.any isParameter
  let resources := segments.filter (! isParameter ·)
  let named :=
    if endsInParameter then
      match resources.getLast? with
      | some last => resources.dropLast ++ [singular last]
      | none => []
    else resources
  verb method endsInParameter ++
    String.join (named.map fun word => Text.pascal (Text.words (String.ofList word)))

end OpenApiZod.Naming
