/-!
# Paths

Paths as texts, read by their letters alone. The parts of a path stand between slashes; an empty
part and `.` stay where they are, `..` leads one directory up, and every other part is a name.
`Path.resolve` gives the location that a path leads to, and `Path.isDescending` tells which paths
lead nowhere but down.
-/

namespace OpenApiZod

/-- Where a file or a directory is: the names on the way from the root. -/
abbrev Location := List String

namespace Path

/-- The pieces of a text between the characters `separator`. -/
def split (separator : Char) : List Char → List (List Char)
  | [] => [[]]
  | c :: cs =>
    if c = separator then [] :: split separator cs
    else
      match split separator cs with
      | [] => [[c]]
      | piece :: rest => (c :: piece) :: rest

/-- The parts of a path. There is always at least one. -/
def parts (path : String) : List String := (split '/' path.toList).map String.ofList

/-- Whether a path starts at the root. -/
def isAbsolute (path : String) : Bool := path.toList.head? == some '/'

/-- Whether a part stays where it is. -/
def isStay (part : String) : Bool := part == "" || part == "."

/-- The location that one more part leads to. -/
def step (at_ : Location) (part : String) : Location :=
  if isStay part then at_
  else if part = ".." then at_.dropLast
  else at_ ++ [part]

/-- The location where a path starts. -/
def origin (workingDirectory : Location) (path : String) : Location :=
  if isAbsolute path then [] else workingDirectory

/-- The location that a path leads to. -/
def resolve (workingDirectory : Location) (path : String) : Location :=
  (parts path).foldl step (origin workingDirectory path)

/-- Whether a path is relative and nothing but names, apart from parts after the first that stay
where they are. -/
def isDescending (path : String) : Bool :=
  !isAbsolute path && (parts path).head? != some "." && decide (".." ∉ parts path)

/-- A path followed from the directory at another one. An absolute path stands for itself. -/
def join (base path : String) : String :=
  if isAbsolute path then path
  else if base.isEmpty || base.toList.getLast? == some '/' then base ++ path
  else base ++ "/" ++ path

/-- A list without the parts at its end that stay where they are; a first part `.` remains. -/
def trimStays (ps : List String) : List String :=
  match ps with
  | [] => []
  | first :: rest => first :: (rest.reverse.dropWhile isStay).reverse

/-- The parts before the last name. -/
def parentParts (path : String) : List String := trimStays (trimStays (parts path)).dropLast

/-- The path of the directory that holds what a path leads to. -/
def parent (path : String) : String :=
  match parentParts path with
  | [""] => "/"
  | ps => "/".intercalate ps

/-- The name that a path ends in, unless it ends in `..` or has none. -/
def fileName? (path : String) : Option String :=
  match ((parts path).filter (!isStay ·)).getLast? with
  | some ".." => none
  | name => name

/-- What follows the last dot of the name that a path ends in. A dot in front makes no
extension. -/
def extension? (path : String) : Option String := do
  let name ← fileName? path
  match (split '.' name.toList).reverse with
  | [] | [_] => none
  | [_, []] => none
  | last :: _ => some (String.ofList last)

end Path

end OpenApiZod
