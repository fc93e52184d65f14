import OpenApiZod.Source
import OpenApiZod.Yaml.CoreSchema
import OpenApiZod.Yaml.Grammar

/-!
# Documents in YAML

How the outer parts of a document are read from a YAML text: a text is the source of any scalar,
a plain empty or null scalar stands for absence, and an empty one for an empty map or object.
Collections nest at most 128 deep, and aliases are followed at most a hundred times for each node
of the text.
-/

namespace OpenApiZod.Yaml

/-- A node in its document. -/
structure Part where
  node : Node
  /-- The nodes that aliases stand for. -/
  anchored : List (Nat × Node)
  /-- How many collections may still nest. -/
  depth : Nat
  /-- How many aliases a typed value may follow. -/
  aliasLimit : Nat
deriving Inhabited

namespace Part

/-- The whole of a document. -/
def ofRoot (root : Node) : Part := ⟨root, root.anchored, 128, 100 * root.size⟩

/-- The whole of the one document of a text. -/
def read? (text : String) : Option Part :=
  ((tokens? text).bind Node.ofTokens?).map ofRoot

/-- The node that a node stands for: itself, unless it is an alias. -/
def target? (anchored : List (Nat × Node)) : Node → Option Node
  | .aliasOf n => anchored.lookup n
  | n => some n

/-- A node inside a collection of this part. -/
def inner (p : Part) (node : Node) : Part := { p with node, depth := p.depth - 1 }

/-! ### Typed values -/

/-- Follows an alias, which uses up one of those that may be followed. -/
def follow (anchored : List (Nat × Node)) (n : Node) : StateT Nat Option Node :=
  match n with
  | .aliasOf id => fun left =>
    match left, anchored.lookup id with
    | left + 1, some n => some (n, left)
    | _, _ => none
  | n => pure n

/-- The typed value of a node in which at most `depth` collections nest. The state is how many
aliases may still be followed. -/
def datumOf (anchored : List (Nat × Node)) : Nat → Node → StateT Nat Option Datum
  | 0, n => do
    match ← follow anchored n with
    | .scalar _ tag style text => StateT.lift (CoreSchema.datum? tag style text)
    | _ => failure
  | depth + 1, n => do
    match ← follow anchored n with
    | .scalar _ tag style text => StateT.lift (CoreSchema.datum? tag style text)
    | .aliasOf _ => failure
    | .sequence _ tag items =>
      if CoreSchema.isLocal tag then failure
      else return .list (← items.mapM (datumOf anchored depth))
    | .mapping _ tag entries =>
      if CoreSchema.isLocal tag then failure
      else
        return .record (← entries.mapM fun (key, value) => do
          return (← datumOf anchored depth key, ← datumOf anchored depth value))

/-- The typed value of a part. -/
def datum? (p : Part) : Option Datum :=
  ((datumOf p.anchored p.depth p.node).run p.aliasLimit).map Prod.fst

/-! ### Outer parts -/

/-- The text of a scalar, of whatever style and tag. -/
def text? (p : Part) : Option String :=
  match target? p.anchored p.node with
  | some (.scalar _ _ _ text) => some text
  | _ => none

/-- Whether a part is a plain scalar without a text. -/
def isBlank (p : Part) : Bool :=
  match target? p.anchored p.node with
  | some (.scalar _ _ .plain "") => true
  | _ => false

/-- A part, unless it stands for absence: a plain scalar that is empty or null, or that is tagged
as null and is. -/
def present? (p : Part) : Option (Option Part) := do
  match ← target? p.anchored p.node with
  | .scalar _ tag .plain text =>
    match tag with
    | none => return if text.isEmpty || CoreSchema.isNull text then none else some p
    | some tag =>
      if tag != CoreSchema.coreTag "null" then return some p
      else if CoreSchema.isNull text then return none
      else none
  | _ => return some p

/-- The entries of a mapping all of whose keys are texts. -/
def mappingEntries? (p : Part) : Option (List (String × Part)) := do
  match ← target? p.anchored p.node with
  | .mapping _ _ entries =>
    if p.depth = 0 then none
    else entries.mapM fun (key, value) => (p.inner key).text?.map (·, p.inner value)
  | _ => none

/-- The entries of a map. -/
def entries? (p : Part) : Option (List (String × Part)) :=
  if p.isBlank then some [] else p.mappingEntries?

/-- The truth value of a plain scalar, or of a literal block that is tagged as one. -/
def bool? (p : Part) : Option Bool :=
  match target? p.anchored p.node with
  | some (.scalar _ tag style text) =>
    if style = .plain ∨ style = .literal ∧ tag = some (CoreSchema.coreTag "bool") then
      CoreSchema.bool? text
    else none
  | _ => none

/-- The name of a choice: the text of a scalar, or its local tag if nothing else is there. -/
def choice? (p : Part) : Option String :=
  match target? p.anchored p.node with
  | some (.scalar _ tag style text) =>
    match tag with
    | some tag =>
      if !CoreSchema.isLocal (some tag) then some text
      else if text.isEmpty || (style = .plain && CoreSchema.isNull text) then
        some (tag.drop 1).copy
      else none
    | none => some text
  | _ => none

instance : Source Part where
  present? := present?
  text? := text?
  entries? := entries?
  fields? known p := p.entries?.bind (Fields.ofEntries? known)
  datum? := datum?

end Part

end OpenApiZod.Yaml
