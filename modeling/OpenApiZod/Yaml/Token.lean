import OpenApiZod.Yaml.Scalar

/-!
# Tokens of a YAML text

`tokens?` cuts a text into tokens. Indentation becomes tokens of its own: a block collection
starts where its first entry is found and ends where the indentation falls back.

A key written before its colon is recognised late. While a scalar or a collection may turn out to
be such a simple key, its place among the tokens is remembered as a `KeyCandidate`; a colon on
the same line, at most 1024 characters on, puts the key's token there.
-/

namespace OpenApiZod.Yaml

/-- A token. -/
inductive Token
  | versionDirective (major minor : Nat)
  | tagDirective (handle start : String)
  | documentStart
  | documentEnd
  | blockSequenceStart
  | blockMappingStart
  | blockEnd
  | flowSequenceStart
  | flowSequenceEnd
  | flowMappingStart
  | flowMappingEnd
  | blockEntry
  | flowEntry
  | key
  | value
  | aliasOf (name : String)
  | anchor (name : String)
  | tag (handle suffix : String)
  | scalar (style : Style) (text : String)
deriving DecidableEq, Repr, Inhabited

/-- A place where a simple key may have started. -/
structure KeyCandidate where
  /-- How many tokens precede the key. -/
  place : Nat
  /-- Whether nothing but a key can stand there. -/
  required : Bool
  index : Nat
  line : Nat
  column : Nat
deriving Repr

/-- The state of the scanner. -/
structure Scanner where
  cursor : Cursor
  /-- The column of the innermost block collection, `-1` outside of any. -/
  indent : Int
  /-- The columns of the block collections around it. -/
  outer : List Int
  /-- Whether a simple key may start at the cursor. -/
  keyAllowed : Bool
  /-- The candidate of the innermost flow collection, or of the block context. -/
  candidate : Option KeyCandidate
  /-- The candidates of the contexts around it, one for each open flow collection. -/
  outerCandidates : List (Option KeyCandidate)
  tokens : Array Token
deriving Repr

namespace Scanner

/-- The scanner at the start of a text. -/
def start (text : String) : Scanner := ⟨.start text, -1, [], true, none, [], #[]⟩

/-- Whether the cursor is inside a flow collection. -/
def inFlow (s : Scanner) : Bool := !s.outerCandidates.isEmpty

/-- Adds a token. -/
def push (s : Scanner) (t : Token) : Scanner := { s with tokens := s.tokens.push t }

/-- Moves the cursor. -/
def moveTo (s : Scanner) (c : Cursor) : Scanner := { s with cursor := c }

/-- Adds a token for the next `n` characters. -/
def accept (s : Scanner) (n : Nat) (t : Token) : Scanner :=
  (s.moveTo (s.cursor.skip n)).push t

/-- Sets whether a simple key may start. -/
def allowKey (s : Scanner) (allowed : Bool) : Scanner := { s with keyAllowed := allowed }

/-! ### Indentation -/

/-- Closes the block collections that are indented further than `column`. -/
def unindent (s : Scanner) (column : Int) : Scanner :=
  if s.inFlow then s else close s.outer s
where
  /-- Closes collections while there are any to return to. -/
  close (outer : List Int) (s : Scanner) : Scanner :=
    match outer with
    | [] => s
    | i :: outer =>
      if s.indent > column then
        close outer { s.push .blockEnd with indent := i, outer := outer }
      else s

/-- Opens a block collection at `column` if it is indented further than the innermost one. Its
token goes to `place`, or to the end. -/
def openBlock (s : Scanner) (column : Nat) (place : Option Nat) (t : Token) : Scanner :=
  if s.inFlow || (column : Int) ≤ s.indent then s
  else
    { s with
      outer := s.indent :: s.outer
      indent := column
      tokens := match place with
        | some i => s.tokens.insertIdxIfInBounds i t
        | none => s.tokens.push t }

/-! ### Simple keys -/

/-- Gives up a candidate that a colon can no longer follow. A required one must not be given
up. -/
def expire? (position : Cursor) : Option KeyCandidate → Option (Option KeyCandidate)
  | some k =>
    if k.line < position.line ∨ k.index + 1024 < position.index then
      if k.required then none else some none
    else some (some k)
  | none => some none

/-- Gives up all candidates that a colon can no longer follow. -/
def expireKeys? (s : Scanner) : Option Scanner := do
  let candidate ← expire? s.cursor s.candidate
  let outerCandidates ← s.outerCandidates.mapM (expire? s.cursor)
  return { s with candidate, outerCandidates }

/-- Gives up the innermost candidate. -/
def dropKey? (s : Scanner) : Option Scanner :=
  if s.candidate.any (·.required) then none else some { s with candidate := none }

/-- Remembers that a simple key may start here, if one may. It is required where the innermost
block collection has its column. -/
def saveKey? (s : Scanner) : Option Scanner :=
  if s.keyAllowed then do
    let s' ← s.dropKey?
    return { s' with candidate := some {
      place := s.tokens.size
      required := !s.inFlow && s.indent == (s.cursor.column : Int)
      index := s.cursor.index
      line := s.cursor.line
      column := s.cursor.column } }
  else some s

/-! ### Directives, anchors and tags -/

/-- A character of a name. -/
def isNamePart (c : Char) : Bool := c.isAlphanum || c == '-' || c == '_'

/-- A character of a tag; commas and brackets only where the tag stands between angle brackets. -/
def isTagPart (verbatim : Bool) (c : Char) : Bool :=
  isNamePart c || c ∈ [';', '/', '?', ':', '@', '&', '=', '+', '$', '.', '!', '~', '*', '\'',
    '(', ')', '%'] || (verbatim && c ∈ [',', '[', ']'])

/-- The bytes that `%` escapes name. -/
def escapedBytes? : List Char → Option (List UInt8)
  | [] => some []
  | '%' :: a :: b :: rest =>
    match Decimal.ofDigits? 16 [a, b] with
    | some n => (escapedBytes? rest).map (n.toUInt8 :: ·)
    | none => none
  | c :: rest =>
    if c = '%' then none else (escapedBytes? rest).map ((String.singleton c).toUTF8.toList ++ ·)

/-- The characters of a tag at the front. -/
def tagText? (verbatim : Bool) (c : Cursor) : Option (List Char × Cursor) := do
  let (cs, c) := c.span (isTagPart verbatim)
  let bytes ← escapedBytes? cs
  let text ← String.fromUTF8? ⟨bytes.toArray⟩
  return (text.toList, c)

/-- A tag handle at the front: `!`, `!!` or a name between exclamation marks. Without the closing
mark the name is the start of a suffix. -/
def tagHandle (c : Cursor) : List Char × Cursor :=
  let (name, c) := (c.skip 1).span isNamePart
  if c.at_ '!' then ('!' :: name ++ ['!'], c.skip 1) else ('!' :: name, c)

/-- The tag at the cursor, which stands on its exclamation mark. -/
def tag? (inFlow : Bool) (c : Cursor) : Option (Token × Cursor) := do
  let (token, c) : Token × Cursor ←
    if c.rest.take 2 == ['!', '<'] then do
      let (suffix, c) ← tagText? true (c.skip 2)
      if suffix.isEmpty || !c.at_ '>' then none
      else some (Token.tag "" (String.ofList suffix), c.skip 1)
    else
      let (handle, c') := tagHandle c
      if handle.length > 1 && handle.getLast? == some '!' then do
        let (suffix, c) ← tagText? false c'
        if suffix.isEmpty then none
        else some (Token.tag (String.ofList handle) (String.ofList suffix), c)
      else do
        let (suffix, c) ← tagText? false c'
        let suffix := handle.tail ++ suffix
        if suffix.isEmpty then some (Token.tag "" "!", c)
        else some (Token.tag "!" (String.ofList suffix), c)
  if (inFlow && c.at_ ',') || c.endsAt 0 then some (token, c) else none

/-- The anchor or alias at the cursor, which stands on its mark. -/
def anchor? (make : String → Token) (c : Cursor) : Option (Token × Cursor) :=
  let (name, c) := (c.skip 1).span isNamePart
  if name.isEmpty then none
  else if c.endsAt 0 || c.peek?.any (· ∈ ['?', ':', ',', ']', '\x7d', '%', '@', '`']) then
    some (make (String.ofList name), c)
  else none

/-- The number of a version at the front, of at most nine digits. -/
def versionNumber? (c : Cursor) : Option (Nat × Cursor) :=
  let (ds, c) := c.span Char.isDigit
  if ds.isEmpty || ds.length > 9 then none else some (Decimal.ofDigits 10 ds, c)

/-- The directive at the cursor, which stands on its percent sign, and the rest of its line. -/
def directive? (c : Cursor) : Option (Token × Cursor) := do
  let (name, c) := (c.skip 1).span isNamePart
  if name.isEmpty || !c.endsAt 0 then none
  else
    let c := c.skipWhile isSpace
    let (token, c) : Token × Cursor ←
      match String.ofList name with
      | "YAML" => do
        let (major, c) ← versionNumber? c
        if !c.at_ '.' then none
        else do
          let (minor, c) ← versionNumber? (c.skip 1)
          return (Token.versionDirective major minor, c)
      | "TAG" => do
        if !c.at_ '!' then none
        else do
          let (handle, c) := tagHandle c
          if handle.length > 1 && handle.getLast? != some '!' then none
          else if !c.peek?.any isSpace then none
          else do
            let (start, c) ← tagText? true (c.skipWhile isSpace)
            if start.isEmpty || !c.endsAt 0 then none
            else return (Token.tagDirective (String.ofList handle) (String.ofList start), c)
      | _ => none
    let c := c.skipWhile isSpace
    let c := if c.at_ '#' then c.skipWhile (!isBreak ·) else c
    match c.lineBreak? with
    | some (_, next) => return (token, next)
    | none => if c.rest.isEmpty then return (token, c) else none

/-! ### Scanning -/

/-- Past blanks, comments and ends of lines. A tab is a blank inside flow collections and where
no simple key may start. Outside of flow collections a simple key may start on a new line. A byte
order mark may stand before a line. -/
def toNextToken (s : Scanner) : Scanner :=
  let tabs := s.inFlow || !s.keyAllowed
  let start := s.cursor.skip (if s.cursor.column == 0 && s.cursor.at_ '\ufeff' then 1 else 0)
  let blanks := start.skipWhile fun x => x == ' ' || (tabs && x == '\t')
  let c := blanks.skipWhile fun x => blanks.at_ '#' && !isBreak x
  match hbreak : c.lineBreak? with
  | some (_, next) =>
    have := Cursor.lineBreak?_length_lt hbreak
    have : c.rest.length ≤ s.cursor.rest.length :=
      Nat.le_trans (Cursor.skipWhile_length_le _ _)
        (Nat.le_trans (Cursor.skipWhile_length_le _ _) (Cursor.skip_length_le _ _))
    toNextToken { s with cursor := next, keyAllowed := s.keyAllowed || !s.inFlow }
  | none => s.moveTo c
termination_by s.cursor.rest.length

/-- Whether the character can start a plain scalar, given the one after it. -/
def startsPlain (inFlow : Bool) (c : Char) (next : Option Char) : Bool :=
  !(isSeparator c || c ∈ ['-', '?', ':', ',', '[', ']', '\x7b', '\x7d', '#', '&', '*', '!', '|',
      '>', '\'', '"', '%', '@', '`']) ||
    (c == '-' && !next.any isSpace) ||
    (!inFlow && (c == '?' || c == ':') && !next.all isSeparator)

/-- Reads a scalar, an anchor, an alias or a tag, all of which may start a simple key. -/
def acceptKeyPart? (s : Scanner) (read : Scanner → Option (Token × Cursor)) : Option Scanner := do
  let s ← s.saveKey?
  let (token, c) ← read s
  return ((s.allowKey false).moveTo c).push token

/-- Opens a flow collection. -/
def openFlow? (s : Scanner) (t : Token) : Option Scanner := do
  let s ← s.saveKey?
  return ({ s with
    candidate := none
    outerCandidates := s.candidate :: s.outerCandidates
    keyAllowed := true }).accept 1 t

/-- Closes a flow collection; a closing bracket outside of any is left to the grammar. -/
def closeFlow? (s : Scanner) (t : Token) : Option Scanner := do
  let s ← s.dropKey?
  let s := match s.outerCandidates with
    | [] => s
    | k :: outer => { s with candidate := k, outerCandidates := outer }
  return (s.allowKey false).accept 1 t

/-- Reads the mark of an entry of a block sequence. -/
def blockEntry? (s : Scanner) : Option Scanner := do
  if !s.inFlow && !s.keyAllowed then none
  else
    let s := s.openBlock s.cursor.column none .blockSequenceStart
    let s ← s.dropKey?
    return (s.allowKey true).accept 1 .blockEntry

/-- Reads the mark of a key that is not a simple one. -/
def explicitKey? (s : Scanner) : Option Scanner := do
  if !s.inFlow && !s.keyAllowed then none
  else
    let s := s.openBlock s.cursor.column none .blockMappingStart
    let s ← s.dropKey?
    return (s.allowKey !s.inFlow).accept 1 .key

/-- Reads the colon before a value. What may have been a simple key is one now. -/
def value? (s : Scanner) : Option Scanner :=
  match s.candidate with
  | some k =>
    let s := { s with tokens := s.tokens.insertIdxIfInBounds k.place .key }
    let s := s.openBlock k.column (some k.place) .blockMappingStart
    some (({ s with candidate := none, keyAllowed := false }).accept 1 .value)
  | none =>
    if !s.inFlow && !s.keyAllowed then none
    else
      let s := s.openBlock s.cursor.column none .blockMappingStart
      some ((s.allowKey !s.inFlow).accept 1 .value)

/-- Reads the scalar of a block. -/
def blockScalar? (s : Scanner) (style : Style) : Option Scanner := do
  let s ← s.dropKey?
  let (text, c) ← block? (style == .folded) s.indent (s.cursor.skip 1)
  return ((s.allowKey true).moveTo c).push (.scalar style (String.ofList text))

/-- Reads a quoted scalar. -/
def quotedScalar? (s : Scanner) (single : Bool) : Option Scanner :=
  s.acceptKeyPart? fun s => do
    let (text, c) ← quoted? single [] (s.cursor.skip 1)
    return (.scalar .quoted (String.ofList text), c)

/-- Reads a plain scalar. After one that ended with its line a simple key may start. -/
def plainScalar? (s : Scanner) : Option Scanner := do
  let s ← s.saveKey?
  let (text, newLine, c) ← plain? s.inFlow (s.indent + 1) [] [] [] s.cursor
  return ((s.allowKey newLine).moveTo c).push (.scalar .plain (String.ofList text))

/-- Reads a mark that ends all block collections. -/
def atMargin? (s : Scanner) (read : Scanner → Option Scanner) : Option Scanner := do
  let s ← (s.unindent (-1)).dropKey?
  read (s.allowKey false)

/-- Reads the next token at a cursor that stands on it, or nothing at the end of the text. -/
def token? (s : Scanner) : Option (Option Scanner) :=
  let c := s.cursor
  match c.rest with
  | [] => some none
  | x :: rest =>
    let separated := rest.head?.all isSeparator
    let next : Option Scanner :=
      if c.column == 0 && x == '%' then
        s.atMargin? fun s => (directive? s.cursor).map fun (t, c) => (s.moveTo c).push t
      else if c.atDocumentMark then
        s.atMargin? fun s => some (s.accept 3 (if x == '-' then .documentStart else .documentEnd))
      else if x == '[' then s.openFlow? .flowSequenceStart
      else if x == '\x7b' then s.openFlow? .flowMappingStart
      else if x == ']' then s.closeFlow? .flowSequenceEnd
      else if x == '\x7d' then s.closeFlow? .flowMappingEnd
      else if x == ',' then do
        let s ← s.dropKey?
        return (s.allowKey true).accept 1 .flowEntry
      else if x == '-' && separated then s.blockEntry?
      else if x == '?' && (s.inFlow || separated) then s.explicitKey?
      else if x == ':' && (s.inFlow || separated) then s.value?
      else if x == '*' then s.acceptKeyPart? fun s => anchor? .aliasOf s.cursor
      else if x == '&' then s.acceptKeyPart? fun s => anchor? .anchor s.cursor
      else if x == '!' then s.acceptKeyPart? fun s => tag? s.inFlow s.cursor
      else if x == '|' && !s.inFlow then s.blockScalar? .literal
      else if x == '>' && !s.inFlow then s.blockScalar? .folded
      else if x == '\'' then s.quotedScalar? true
      else if x == '"' then s.quotedScalar? false
      else if startsPlain s.inFlow x rest.head? then s.plainScalar?
      else none
    next.map some

/-- Ends all block collections at the end of the text. -/
def finish? (s : Scanner) : Option (List Token) := do
  let s ← (s.unindent (-1)).dropKey?
  return s.tokens.toList

/-- Reads all tokens in at most `steps` steps. -/
def run? (steps : Nat) (s : Scanner) : Option (List Token) :=
  match steps with
  | 0 => none
  | steps + 1 => do
    let ready ← s.toNextToken.expireKeys?
    let ready := ready.unindent ready.cursor.column
    match ← ready.token? with
    | none => ready.finish?
    | some next => next.run? steps

end Scanner

/-- The tokens of a text. A step takes at least one character, and the last one finds the end. -/
def tokens? (text : String) : Option (List Token) :=
  if text.toList.all isAllowed then (Scanner.start text).run? (text.length + 1) else none

end OpenApiZod.Yaml
