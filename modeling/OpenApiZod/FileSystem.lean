import OpenApiZod.Path

/-!
# Files

`Storage` is what the program asks of the place where files are kept. `FileSystem` is such a place
as a value: what stands at each location, and the working directory. Paths are followed through
directories only, a name has at most 255 bytes, and a file and a directory never stand at the
same location.
-/

namespace OpenApiZod

/-- A place where files are kept, as the program uses it. -/
class Storage (m : Type → Type) where
  /-- Whether a path leads to a file or a directory. -/
  exists? : String → m Bool
  /-- The text of the file at a path. -/
  read? : String → m (Option String)
  /-- Makes the directory at a path and those on the way; tells whether it could. -/
  makeDirectories : String → m Bool
  /-- Makes or overwrites the file at a path; tells whether it could. -/
  write : String → String → m Bool

/-- The same place, for a program that may end early. -/
instance {ε : Type} {m : Type → Type} [Monad m] [Storage m] : Storage (ExceptT ε m) where
  exists? path := ExceptT.lift (Storage.exists? path)
  read? path := ExceptT.lift (Storage.read? path)
  makeDirectories path := ExceptT.lift (Storage.makeDirectories path)
  write path text := ExceptT.lift (Storage.write path text)

/-- What stands at a location. -/
inductive Entry
  | file (text : String)
  | directory
deriving DecidableEq, Repr, Inhabited

/-- What stands at each location. The root is always a directory. -/
structure FileSystem where
  entries : List (Location × Entry)
  workingDirectory : Location
deriving Repr

namespace FileSystem

/-- What stands at a location, if anything. -/
def lookup (fs : FileSystem) (at_ : Location) : Option Entry :=
  if at_ = [] then some .directory else fs.entries.lookup at_

/-- Puts an entry at a location. -/
def set (fs : FileSystem) (at_ : Location) (e : Entry) : FileSystem :=
  { fs with entries := (at_, e) :: fs.entries.filter (·.1 ≠ at_) }

/-- What has been put at a location is found there. -/
theorem lookup_set_self (fs : FileSystem) {at_ : Location} (e : Entry) (h : at_ ≠ []) :
    (fs.set at_ e).lookup at_ = some e := by
  simp [lookup, set, h]

/-- What stands elsewhere stays. -/
theorem lookup_set_of_ne (fs : FileSystem) {at_ other : Location} (e : Entry) (h : other ≠ at_) :
    (fs.set at_ e).lookup other = fs.lookup other := by
  have hb : (other == at_) = false := by simp [h]
  unfold lookup set
  split
  · rfl
  · simp only [List.lookup_cons, hb]
    induction fs.entries with
    | nil => rfl
    | cons entry rest ih =>
      obtain ⟨place, x⟩ := entry
      by_cases hplace : place = at_
      · simpa [List.filter_cons, hplace, List.lookup_cons, hb] using ih
      · rw [List.filter_cons_of_pos (by simp [hplace]), List.lookup_cons, List.lookup_cons, ih]

/-- The text of the file at a location. -/
def content? (fs : FileSystem) (at_ : Location) : Option String :=
  match fs.lookup at_ with
  | some (.file text) => some text
  | _ => none

/-- Whether a directory stands at a location. -/
def isDirectory (fs : FileSystem) (at_ : Location) : Bool := fs.lookup at_ == some .directory

/-- Whether a part of a path can be a name. -/
def isPossibleName (part : String) : Bool := part.utf8ByteSize ≤ 255 && !part.toList.contains '\x00'

/-- Follows parts of a path from a location. Every location before the last has to be a
directory. -/
def walk? (fs : FileSystem) (at_ : Location) : List String → Option Location
  | [] => some at_
  | part :: rest =>
    if fs.isDirectory at_ && isPossibleName part then fs.walk? (Path.step at_ part) rest else none

/-- The location that a path leads to through directories. -/
def locate? (fs : FileSystem) (path : String) : Option Location :=
  fs.walk? (Path.origin fs.workingDirectory path) (Path.parts path)

/-- What stands where a path leads. -/
def find? (fs : FileSystem) (path : String) : Option Entry :=
  if path.isEmpty then none else (fs.locate? path).bind fs.lookup

/-- The text of the file at a path. -/
def read? (fs : FileSystem) (path : String) : Option String :=
  match fs.find? path with
  | some (.file text) => some text
  | _ => none

/-- Follows parts of a path from a location and makes the directories that are missing. -/
def makeWay? (fs : FileSystem) (at_ : Location) : List String → Option FileSystem
  | [] => some fs
  | part :: rest =>
    let next := Path.step at_ part
    match fs.lookup next with
    | some .directory => fs.makeWay? next rest
    | some (.file _) => none
    | none => if isPossibleName part then (fs.set next .directory).makeWay? next rest else none

/-- Makes the directory at a path and those on the way. -/
def makeDirectories? (fs : FileSystem) (path : String) : Option FileSystem :=
  fs.makeWay? (Path.origin fs.workingDirectory path) (Path.parts path)

/-- Makes or overwrites the file at a path. -/
def write? (fs : FileSystem) (path text : String) : Option FileSystem :=
  match fs.locate? path with
  | none => none
  | some at_ => if fs.isDirectory at_ then none else some (fs.set at_ (.file text))

/-- The directories on the way to a location, and the location itself as one. -/
def wayTo (at_ : Location) : List (Location × Entry) :=
  (List.range at_.length).map fun n => (at_.take (n + 1), .directory)

/-- Nothing but the working directory. -/
def start (workingDirectory : Location) : FileSystem := ⟨wayTo workingDirectory, workingDirectory⟩

/-- Puts a text at a path, with the directories on the way, if that is possible. -/
def place (fs : FileSystem) (path text : String) : FileSystem :=
  (((fs.makeDirectories? (Path.parent path)).bind (·.write? path text))).getD fs

/-- What an operation that may be impossible makes of the state, and whether it was possible. -/
def attempt (operation : FileSystem → Option FileSystem) : StateM FileSystem Bool := fun fs =>
  match operation fs with
  | some fs => (true, fs)
  | none => (false, fs)

instance : Storage (StateM FileSystem) where
  exists? path := fun fs => ((fs.find? path).isSome, fs)
  read? path := fun fs => (fs.read? path, fs)
  makeDirectories path := attempt (·.makeDirectories? path)
  write path text := attempt (·.write? path text)

/-- The texts of all files, by location. -/
def files (fs : FileSystem) : List (Location × String) :=
  fs.entries.filterMap fun (at_, e) =>
    match e with
    | .file text => some (at_, text)
    | .directory => none

end FileSystem

end OpenApiZod
