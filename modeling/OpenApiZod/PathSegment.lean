import OpenApiZod.OutputOptions

/-!
# Path segments

File and directory names made from the names in a document, and the specifiers under which
modules import each other.
-/

namespace OpenApiZod

/-- A control character. -/
def isControl (c : Char) : Bool :=
  c.toNat < 0x20 || (0x7F ≤ c.toNat && c.toNat < 0xA0)

/-- A character that cannot stand inside one segment of a path. -/
def breaksSegment (c : Char) : Bool :=
  c == '/' || c == '\\' || c == ':' || isControl c

/-- A name usable as exactly one segment of a path: separators and control characters become
underscores, and so do all dots of a name made of dots alone. An empty name is one underscore. -/
def pathSegment (name : String) : String :=
  let cs := name.toList.map fun c => if breaksSegment c then '_' else c
  if cs.all (· == '.') then String.ofList (List.replicate (max cs.length 1) '_')
  else String.ofList cs

/-- The specifier of a component's module, seen from where `start` leads to its directory. -/
def componentSpecifier (start name : String) (options : OutputOptions) : String :=
  start ++ "/" ++ pathSegment name ++ options.importExtension

end OpenApiZod
