import OpenApiZod.Yaml.Node
import OpenApiZod.Yaml.Token

/-!
# The grammar of a YAML text

`Node.ofTokens?` reads the tokens of a text as the node of its one document. Every part of the
grammar takes at least one token, which is why reading ends: a `Found` is what was read together
with a shorter rest.
-/

namespace OpenApiZod.Yaml

/-! ### Directives -/

/-- The tag handles of a document and what they stand for. -/
abbrev Handles := List (String × String)

/-- The handles that every document has. -/
def standardHandles : Handles := [("!", "!"), ("!!", "tag:yaml.org,2002:")]

/-- Reads the directives at the front. There may be one version, and one for each handle. -/
def directives? (versioned : Bool) (handles : Handles) :
    List Token → Option (Handles × List Token)
  | .versionDirective major minor :: rest =>
    if !versioned && major == 1 && (minor == 1 || minor == 2) then directives? true handles rest
    else none
  | .tagDirective handle start :: rest =>
    if (handles.lookup handle).isSome then none
    else directives? versioned ((handle, start) :: handles) rest
  | ts => some (handles, ts)

/-- The full form of a tag. A tag without a handle is in full form. -/
def fullTag? (handles : Handles) (handle suffix : String) : Option String :=
  if handle.isEmpty then some suffix else (handles.lookup handle).map (· ++ suffix)

/-! ### Nodes -/

/-- The tokens to come, and the number of each anchored name so far. -/
structure Position where
  tokens : List Token
  anchors : Table Nat

namespace Position

/-- The position before the given tokens. -/
def at_ (p : Position) (tokens : List Token) : Position := { p with tokens }

/-- A place is kept beside the tokens. -/
@[simp] theorem tokens_at (p : Position) (tokens : List Token) : (p.at_ tokens).tokens = tokens :=
  rfl

/-- The position before the given tokens with a name anchored. -/
def anchored (p : Position) (name : Option String) (tokens : List Token) : Position :=
  match name with
  | none => p.at_ tokens
  | some name => ⟨tokens, p.anchors.insert name p.anchors.size⟩

/-- So is the name of an anchor. -/
@[simp] theorem tokens_anchored (p : Position) (name : Option String) (tokens : List Token) :
    (p.anchored name tokens).tokens = tokens := by
  cases name <;> rfl

end Position

/-- What was read from the front, and the position after it, with less than `n` tokens. -/
abbrev Found (n : Nat) (α : Type) := { r : α × Position // r.2.tokens.length < n }

/-- The anchor and the tag at the front, in either order. -/
def properties : List Token → Option String × Option (String × String) × List Token
  | .anchor name :: .tag handle suffix :: rest => (some name, some (handle, suffix), rest)
  | .tag handle suffix :: .anchor name :: rest => (some name, some (handle, suffix), rest)
  | .anchor name :: rest => (some name, none, rest)
  | .tag handle suffix :: rest => (none, some (handle, suffix), rest)
  | ts => (none, none, ts)

/-- Reading the properties of a node reads no token twice. -/
theorem properties_length_le {ts rest : List Token} {name : Option String}
    {tag : Option (String × String)} (h : properties ts = (name, tag, rest)) :
    rest.length ≤ ts.length := by
  unfold properties at h
  split at h <;> grind

/-- An anchor and a tag take a token each. -/
theorem properties_length_lt {ts rest : List Token} {name : Option String}
    {tag : Option (String × String)} (h : properties ts = (name, tag, rest))
    (hsome : name.isSome ∨ tag.isSome) : rest.length < ts.length := by
  unfold properties at h
  split at h <;> grind

/-- Whether the next token ends an entry of a block sequence that has no node. -/
def endsBlockItem : List Token → Bool
  | .blockEntry :: _ | .blockEnd :: _ => true
  | _ => false

/-- Whether the next token ends a key or a value of a block mapping that has no node. -/
def endsBlockField : List Token → Bool
  | .key :: _ | .value :: _ | .blockEnd :: _ => true
  | _ => false

/-- Whether the next token ends a value inside brackets that has no node; `close` is the closing
bracket. -/
def endsFlowValue (close : Token) : List Token → Bool
  | .flowEntry :: _ => true
  | t :: _ => t == close
  | [] => false

/-- Whether the next token ends a key inside brackets that has no node. -/
def endsFlowKey (close : Token) : List Token → Bool
  | .value :: _ => true
  | ts => endsFlowValue close ts

/-- Whether the next token ends an entry without a node in a sequence that has no indentation of
its own. -/
def endsIndentlessItem (ts : List Token) : Bool := endsBlockItem ts || endsBlockField ts

/-- Reads what `read` reads, as part of a longer text. -/
def Found.weaken {n m : Nat} {α : Type} (h : n ≤ m) (r : Found n α) : Found m α :=
  ⟨r.1, Nat.lt_of_lt_of_le r.2 h⟩

mutual

/-- Reads a node. Block collections are allowed if `block`, and a sequence without indentation of
its own if `indentless`. An anchor or a tag may stand before nothing. -/
def node? (handles : Handles) (block indentless : Bool) (p : Position) :
    Option (Found p.tokens.length Node) :=
  match hp : p.tokens with
  | .aliasOf name :: rest =>
    (p.anchors.get? name).map fun id => ⟨(.aliasOf id, p.at_ rest), by simp⟩
  | ts =>
    match hproperties : properties ts with
    | (name, tagParts, rest) => do
      have hle := properties_length_le hproperties
      let tag ← match tagParts with
        | none => some none
        | some (handle, suffix) => (fullTag? handles handle suffix).map some
      let anchor := name.map fun _ => p.anchors.size
      match ← content? handles block indentless anchor tag (p.anchored name rest) with
      | some r => return r.weaken (by simpa using hle)
      | none =>
        if hsome : name.isSome ∨ tagParts.isSome then
          return ⟨(.scalar anchor tag .plain "", p.anchored name rest), by
            simpa using properties_length_lt hproperties hsome⟩
        else none
termination_by (p.tokens.length, 1)
decreasing_by
  simp only [Position.tokens_anchored, hp, Prod.lex_def]
  omega

/-- Reads the scalar or the collection at the front, if one starts there. -/
def content? (handles : Handles) (block indentless : Bool) (anchor : Option Nat)
    (tag : Option String) (p : Position) : Option (Option (Found p.tokens.length Node)) :=
  match hp : p.tokens with
  | .scalar style text :: rest =>
    let tag := if tag == some "!" then none else tag
    some (some ⟨(.scalar anchor tag style text, p.at_ rest), by simp⟩)
  | .flowSequenceStart :: rest => do
    let ⟨(items, q), hq⟩ ← flowItems? handles (p.at_ rest)
    return some ⟨(.sequence anchor tag items, q), by simp_all; omega⟩
  | .flowMappingStart :: rest => do
    let ⟨(fields, q), hq⟩ ← flowFields? handles (p.at_ rest)
    return some ⟨(.mapping anchor tag fields, q), by simp_all; omega⟩
  | .blockSequenceStart :: rest => do
    if !block then return none
    let ⟨(items, q), hq⟩ ← blockItems? handles (p.at_ rest)
    return some ⟨(.sequence anchor tag items, q), by simp_all; omega⟩
  | .blockMappingStart :: rest => do
    if !block then return none
    let ⟨(fields, q), hq⟩ ← blockFields? handles (p.at_ rest)
    return some ⟨(.mapping anchor tag fields, q), by simp_all; omega⟩
  | .blockEntry :: rest => do
    if !indentless then return none
    let ⟨(items, q), hq⟩ ← indentlessItems? handles (p.at_ rest)
    return some ⟨(.sequence anchor tag items, q), by simp_all⟩
  | _ => some none
termination_by (p.tokens.length, 0)
decreasing_by all_goals simp_all [Prod.lex_def]; try omega

/-- Reads a node where the front does not say, by `ends`, that there is none. -/
def nodeUnless? (ends : List Token → Bool) (handles : Handles) (block indentless : Bool)
    (p : Position) : Option (Found (p.tokens.length + 1) Node) :=
  if ends p.tokens then some ⟨(.empty, p), by simp⟩
  else (node? handles block indentless p).map (Found.weaken (by simp))
termination_by (p.tokens.length, 2)

/-- Reads the value of a field whose key has been read. -/
def fieldValue? (ends : List Token → Bool) (handles : Handles) (block : Bool) (p : Position) :
    Option (Found (p.tokens.length + 1) Node) :=
  match hp : p.tokens with
  | .value :: rest =>
    (nodeUnless? ends handles block block (p.at_ rest)).map (Found.weaken (by simp))
  | _ => some ⟨(.empty, p), by simp [hp]⟩
termination_by (p.tokens.length, 3)
decreasing_by simp_all [Prod.lex_def]

/-- Reads the entries of a block sequence and its end. -/
def blockItems? (handles : Handles) (p : Position) :
    Option (Found p.tokens.length (List Node)) :=
  match hp : p.tokens with
  | .blockEntry :: rest => do
    let ⟨(item, q), hq⟩ ← nodeUnless? endsBlockItem handles true false (p.at_ rest)
    let ⟨(items, r), hr⟩ ← blockItems? handles q
    return ⟨(item :: items, r), by simp_all; omega⟩
  | .blockEnd :: rest => some ⟨([], p.at_ rest), by simp⟩
  | _ => none
termination_by (p.tokens.length, 3)
decreasing_by all_goals simp_all [Prod.lex_def]

/-- Reads the entries of a sequence without indentation of its own, after the mark of the
first. -/
def indentlessItems? (handles : Handles) (p : Position) :
    Option (Found (p.tokens.length + 1) (List Node)) := do
  let ⟨(item, q), hq⟩ ← nodeUnless? endsIndentlessItem handles true false p
  match hrest : q.tokens with
  | .blockEntry :: rest =>
    let ⟨(items, r), hr⟩ ← indentlessItems? handles (q.at_ rest)
    return ⟨(item :: items, r), by simp_all; omega⟩
  | _ => return ⟨([item], q), hq⟩
termination_by (p.tokens.length, 3)
decreasing_by all_goals simp_all [Prod.lex_def]; try omega

/-- Reads the fields of a block mapping and its end. -/
def blockFields? (handles : Handles) (p : Position) :
    Option (Found p.tokens.length (List (Node × Node))) :=
  match hp : p.tokens with
  | .key :: rest => do
    let ⟨(key, q), hq⟩ ← nodeUnless? endsBlockField handles true true (p.at_ rest)
    let ⟨(value, r), hr⟩ ← fieldValue? endsBlockField handles true q
    let ⟨(fields, s), hs⟩ ← blockFields? handles r
    return ⟨((key, value) :: fields, s), by simp_all; omega⟩
  | .blockEnd :: rest => some ⟨([], p.at_ rest), by simp⟩
  | _ => none
termination_by (p.tokens.length, 3)
decreasing_by all_goals simp_all [Prod.lex_def]; try omega

/-- Reads the entries of a sequence in brackets and its end. An entry that starts with the mark
of a key is a mapping with one field. -/
def flowItems? (handles : Handles) (p : Position) : Option (Found p.tokens.length (List Node)) :=
  match hp : p.tokens with
  | .flowSequenceEnd :: rest => some ⟨([], p.at_ rest), by simp⟩
  | .key :: rest => do
    let ⟨(key, q), hq⟩ ← pairKey? handles (p.at_ rest)
    let ⟨(value, r), hr⟩ ← fieldValue? (endsFlowValue .flowSequenceEnd) handles false q
    let ⟨(items, s), hs⟩ ← flowItemsAfter? handles r
    return ⟨(.mapping none none [(key, value)] :: items, s), by simp_all; omega⟩
  | _ => do
    let ⟨(item, q), hq⟩ ← node? handles false false p
    let ⟨(items, r), hr⟩ ← flowItemsAfter? handles q
    return ⟨(item :: items, r), by simp_all; omega⟩
termination_by (p.tokens.length, 3)
decreasing_by all_goals simp_all [Prod.lex_def]; try omega

/-- Reads the key of a field that is an entry of a sequence. A token that shows that there is no
key is passed over with it. -/
def pairKey? (handles : Handles) (p : Position) : Option (Found (p.tokens.length + 1) Node) :=
  if endsFlowKey .flowSequenceEnd p.tokens then
    some ⟨(.empty, p.at_ p.tokens.tail), by
      rw [Position.tokens_at, List.length_tail]
      omega⟩
  else (node? handles false false p).map (Found.weaken (by simp))
termination_by (p.tokens.length, 2)

/-- Reads the comma or the end after an entry of a sequence in brackets, and what follows. -/
def flowItemsAfter? (handles : Handles) (p : Position) :
    Option (Found p.tokens.length (List Node)) :=
  match hp : p.tokens with
  | .flowEntry :: rest =>
    (flowItems? handles (p.at_ rest)).map (Found.weaken (by simp))
  | .flowSequenceEnd :: rest => some ⟨([], p.at_ rest), by simp⟩
  | _ => none
termination_by (p.tokens.length, 3)
decreasing_by simp_all [Prod.lex_def]

/-- Reads the fields of a mapping in braces and its end. A field may have no value and no mark
of a key. -/
def flowFields? (handles : Handles) (p : Position) :
    Option (Found p.tokens.length (List (Node × Node))) :=
  match hp : p.tokens with
  | .flowMappingEnd :: rest => some ⟨([], p.at_ rest), by simp⟩
  | .key :: rest => do
    let ends := endsFlowValue .flowMappingEnd
    let ⟨(key, q), hq⟩ ← nodeUnless? (endsFlowKey .flowMappingEnd) handles false false (p.at_ rest)
    let ⟨(value, r), hr⟩ ← fieldValue? ends handles false q
    let ⟨(fields, s), hs⟩ ← flowFieldsAfter? handles r
    return ⟨((key, value) :: fields, s), by simp_all; omega⟩
  | _ => do
    let ⟨(key, q), hq⟩ ← node? handles false false p
    let ⟨(fields, r), hr⟩ ← flowFieldsAfter? handles q
    return ⟨((key, .empty) :: fields, r), by simp_all; omega⟩
termination_by (p.tokens.length, 3)
decreasing_by all_goals simp_all [Prod.lex_def]; try omega

/-- Reads the comma or the end after a field of a mapping in braces, and what follows. -/
def flowFieldsAfter? (handles : Handles) (p : Position) :
    Option (Found p.tokens.length (List (Node × Node))) :=
  match hp : p.tokens with
  | .flowEntry :: rest =>
    (flowFields? handles (p.at_ rest)).map (Found.weaken (by simp))
  | .flowMappingEnd :: rest => some ⟨([], p.at_ rest), by simp⟩
  | _ => none
termination_by (p.tokens.length, 3)
decreasing_by simp_all [Prod.lex_def]

end

/-! ### Documents -/

/-- Whether there is nothing between the start of a document and the front. -/
def endsDocument : List Token → Bool
  | [] => true
  | .versionDirective .. :: _ | .tagDirective .. :: _ => true
  | .documentStart :: _ | .documentEnd :: _ => true
  | _ => false

/-- Whether a document starts here with directives or with a mark. -/
def startsExplicitly : List Token → Bool
  | .versionDirective .. :: _ | .tagDirective .. :: _ | .documentStart :: _ => true
  | _ => false

/-- Reads the node of the document at the front. -/
def document? (ts : List Token) : Option (Node × List Token) :=
  if startsExplicitly ts then do
    let (handles, rest) ← directives? false [] ts
    match rest with
    | .documentStart :: rest =>
      let ⟨(root, q), _⟩ ←
        nodeUnless? endsDocument (handles ++ standardHandles) true false ⟨rest, .empty⟩
      return (root, q.tokens)
    | _ => none
  else do
    let ⟨(root, q), _⟩ ← node? standardHandles true false ⟨ts, .empty⟩
    return (root, q.tokens)

/-- Reads the one document of a text. A text without any token has an empty one. -/
def Node.ofTokens? (ts : List Token) : Option Node :=
  if ts.isEmpty then some .empty
  else do
    let (root, rest) ← document? ts
    if rest.all (· == .documentEnd) then some root else none

end OpenApiZod.Yaml
