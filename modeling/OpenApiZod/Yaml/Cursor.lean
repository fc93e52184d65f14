/-!
# Positions in a YAML text

A `Cursor` is the rest of a text together with where it starts: how many characters precede it,
on which line, and in which column. YAML's layout is decided by columns.
-/

namespace OpenApiZod.Yaml

/-- A blank inside a line. -/
def isSpace (c : Char) : Bool := c == ' ' || c == '\t'

/-- A character that ends a line. -/
def isBreak (c : Char) : Bool :=
  c == '\n' || c == '\r' || c.toNat == 0x85 || c.toNat == 0x2028 || c.toNat == 0x2029

/-- A blank or the end of a line. -/
def isSeparator (c : Char) : Bool := isSpace c || isBreak c

/-- A character that may stand in a YAML text. -/
def isAllowed (c : Char) : Bool :=
  let n := c.toNat
  n == 0x9 || n == 0xA || n == 0xD || (0x20 ≤ n && n ≤ 0x7E) || n == 0x85 ||
    (0xA0 ≤ n && n ≤ 0xFFFD) || 0x10000 ≤ n

/-- A position in a text. -/
structure Cursor where
  rest : List Char
  index : Nat
  line : Nat
  column : Nat
deriving Repr

namespace Cursor

/-- The start of a text. -/
def start (s : String) : Cursor := ⟨s.toList, 0, 0, 0⟩

/-- The next character. -/
def peek? (c : Cursor) : Option Char := c.rest.head?

/-- Whether the next character is `x`. -/
def at_ (c : Cursor) (x : Char) : Bool := c.rest.head? == some x

/-- Whether nothing, a blank or the end of a line follows the next `n` characters. -/
def endsAt (c : Cursor) (n : Nat) : Bool := (c.rest.drop n).head?.all isSeparator

/-- Past the next `n` characters, none of which ends a line. -/
def skip (c : Cursor) (n : Nat) : Cursor :=
  ⟨c.rest.drop n, c.index + n, c.line, c.column + n⟩

/-- Past one character that does not end a line and is followed by `rest`. -/
def step (c : Cursor) (rest : List Char) : Cursor := ⟨rest, c.index + 1, c.line, c.column + 1⟩

/-- The characters at the front that `p` accepts, none of which ends a line, and what follows. -/
def span (c : Cursor) (p : Char → Bool) : List Char × Cursor :=
  let taken := c.rest.takeWhile p
  (taken, c.skip taken.length)

/-- Past the characters at the front that `p` accepts. -/
def skipWhile (c : Cursor) (p : Char → Bool) : Cursor := (c.span p).2

/-- The end of a line at the front as the character it stands for, and what follows. -/
def lineBreak? (c : Cursor) : Option (Char × Cursor) :=
  match c.rest with
  | '\r' :: '\n' :: rest => some ('\n', ⟨rest, c.index + 2, c.line + 1, 0⟩)
  | b :: rest =>
    if isBreak b then
      let meant := if b.toNat == 0x2028 || b.toNat == 0x2029 then b else '\n'
      some (meant, ⟨rest, c.index + 1, c.line + 1, 0⟩)
    else none
  | [] => none

/-- Skipping reads nothing back. -/
theorem skip_length_le (c : Cursor) (n : Nat) : (c.skip n).rest.length ≤ c.rest.length := by
  simp [skip]

/-- Nor does skipping a stretch of characters. -/
theorem skipWhile_length_le (c : Cursor) (p : Char → Bool) :
    (c.skipWhile p).rest.length ≤ c.rest.length :=
  c.skip_length_le _

/-- Skipping at least one character gets on, unless the text is at its end. -/
theorem skip_length_lt {c : Cursor} {n : Nat} (hn : 0 < n) (hc : c.rest ≠ []) :
    (c.skip n).rest.length < c.rest.length := by
  have := List.length_pos_iff.2 hc
  simp only [skip, List.length_drop]
  omega

/-- Reading the end of a line takes at least one character. -/
theorem lineBreak?_length_lt {c next : Cursor} {b : Char} (h : c.lineBreak? = some (b, next)) :
    next.rest.length < c.rest.length := by
  unfold lineBreak? at h
  split at h
  · next hrest => grind
  · next hrest => grind
  · simp at h

/-- Where a break comes next there is a line break. -/
theorem lineBreak?_isSome {c : Cursor} {b : Char} (h : c.rest.head? = some b) (hb : isBreak b) :
    c.lineBreak?.isSome := by
  unfold lineBreak?
  split
  · rfl
  · simp_all
  · simp_all

/-- Past the end of the line at the front, if there is one. -/
def pastBreak (c : Cursor) : Cursor :=
  match c.lineBreak? with
  | some (_, next) => next
  | none => c

/-- Going past a break reads nothing back. -/
theorem pastBreak_length_le (c : Cursor) : c.pastBreak.rest.length ≤ c.rest.length := by
  unfold pastBreak
  split
  · next hbreak => exact Nat.le_of_lt (lineBreak?_length_lt hbreak)
  · exact Nat.le_refl _

/-- Past the rest of the line, its end included. -/
def pastLine (c : Cursor) : Cursor := (c.skipWhile (!isBreak ·)).pastBreak

/-- Unless the text has ended, a line takes at least one character. -/
theorem pastLine_length_lt {c : Cursor} (h : c.rest ≠ []) :
    c.pastLine.rest.length < c.rest.length := by
  obtain ⟨text, index, line, column⟩ := c
  cases text with
  | nil => exact absurd rfl h
  | cons x rest =>
    by_cases hx : isBreak x
    · have hsome := lineBreak?_isSome (c := ⟨x :: rest, index, line, column⟩) rfl hx
      obtain ⟨⟨b, next⟩, hbreak⟩ := Option.isSome_iff_exists.1 hsome
      have hlt := lineBreak?_length_lt hbreak
      simpa [pastLine, skipWhile, span, skip, hx, pastBreak, hbreak] using hlt
    · exact Nat.lt_of_le_of_lt (pastBreak_length_le _) (skip_length_lt (by simp [hx]) h)

/-- Whether a line starts here with the mark of a document's start or end. -/
def atDocumentMark (c : Cursor) : Bool :=
  c.column == 0 && (c.rest.take 3 == ['-', '-', '-'] || c.rest.take 3 == ['.', '.', '.']) &&
    c.endsAt 3

end Cursor

end OpenApiZod.Yaml
