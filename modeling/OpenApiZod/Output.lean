import OpenApiZod.FileSystem

/-!
# Writing below a directory

Texts are written to relative paths below a base directory, one after the other. A path that
leads anywhere but down is refused before anything is done for it; what has been written before
stays.
-/

namespace OpenApiZod

/-- A text and the relative path where it belongs. -/
structure Output where
  path : String
  text : String
deriving DecidableEq, Repr

/-- Why a text cannot be written. -/
inductive OutputError
  /-- The path does not lead down from the base. -/
  | outside (path base : String)
  /-- The directory for the file cannot be made. -/
  | directory (path : String)
  /-- The file cannot be written. -/
  | file (path : String)
deriving DecidableEq, Repr

/-- The text of the error. -/
def OutputError.message : OutputError → String
  | .outside path base => "refusing to write " ++ path ++ " outside " ++ base
  | .directory path => "failed to create directory " ++ path
  | .file path => "failed to write " ++ path

namespace Output

variable {m : Type → Type} [Monad m] [Storage m]

/-- Writes one text below a directory. -/
def write (base : String) (output : Output) : m (Option OutputError) := do
  if !Path.isDescending output.path then
    return some (.outside output.path base)
  else
    let path := Path.join base output.path
    if !(← Storage.makeDirectories (Path.parent path)) then
      return some (.directory (Path.parent path))
    else if !(← Storage.write path output.text) then
      return some (.file path)
    else
      return none

/-- Writes texts below a directory up to the first that cannot be written. -/
def writeAll (base : String) : List Output → m (Option OutputError)
  | [] => return none
  | output :: rest => do
    match ← write base output with
    | some error => return some error
    | none => writeAll base rest

end Output

end OpenApiZod
