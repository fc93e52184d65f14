import OpenApiZod.Json.Tree
import OpenApiZod.Text.Quoted

/-!
# String literals

`StringLiteral.read?` reads a JavaScript string between double quotes the way a module does: a
literal ends at the first quote that is not escaped, and no line ends inside it.

A text without backslashes and line ends can be pasted between quotes as it stands if and only if
it has no quote itself (`read?_pasted_iff`). `Text.quoted` writes a literal for every text
(`read?_quoted`).
-/

namespace OpenApiZod.StringLiteral

open Json (Piece textOf?)

/-! ### Reading -/

/-- The character that a letter stands for after a backslash. The letters `x` and `u` and the digits
start longer escapes. -/
def single? : Char → Option Char
  | 'b' => some '\x08'
  | 't' => some '\t'
  | 'n' => some '\n'
  | 'v' => some '\x0B'
  | 'f' => some '\x0C'
  | 'r' => some '\r'
  | 'x' => none
  | 'u' => none
  | c => if c.isDigit then none else some c

/-- Whether a line ends at the character. -/
def endsLine (c : Char) : Bool :=
  c == '\n' || c == '\r' || c.toNat == 0x2028 || c.toNat == 0x2029

/-- The piece of text that a number in braces names: a UTF-16 unit or a character beyond those. -/
def pieceOf? (n : Nat) : Option Piece :=
  if n < 0x10000 then some (.unit n)
  else if n < 0x110000 then some (.char (.ofNat n))
  else none

/-- Puts a piece before those that are read after it. -/
def push (piece : Piece) (read : Option (List Piece × List Char)) :
    Option (List Piece × List Char) :=
  read.map fun (pieces, rest) => (piece :: pieces, rest)

mutual

/-- The pieces of a literal up to its closing quote, and what follows it. -/
def readPieces? : List Char → Option (List Piece × List Char)
  | [] => none
  | c :: rest =>
    if c = '"' then some ([], rest)
    else if c = '\\' then readEscape? rest
    else if c = '\n' ∨ c = '\r' then none
    else push (.char c) (readPieces? rest)

/-- The pieces from an escape on, after its backslash. A line that ends after a backslash is
continued. -/
def readEscape? : List Char → Option (List Piece × List Char)
  | [] => none
  | '\r' :: '\n' :: rest => readPieces? rest
  | c :: rest =>
    if endsLine c then readPieces? rest
    else if c = '0' then
      if rest.head?.any Char.isDigit then none else push (.char '\x00') (readPieces? rest)
    else if c = 'x' then readHex? 1 0 rest
    else if c = 'u' then readUnit? rest
    else (single? c).bind fun plain => push (.char plain) (readPieces? rest)

/-- The pieces from a unit on, of which `value` has been read; `more` digits follow the next one. -/
def readHex? (more value : Nat) : List Char → Option (List Piece × List Char)
  | [] => none
  | c :: rest =>
    if Decimal.digitValue c < 16 then
      match more with
      | 0 => push (.unit (16 * value + Decimal.digitValue c)) (readPieces? rest)
      | more + 1 => readHex? more (16 * value + Decimal.digitValue c) rest
    else none

/-- The pieces from a unit on, after its letter `u`. -/
def readUnit? : List Char → Option (List Piece × List Char)
  | [] => none
  | c :: rest =>
    if c = '\x7b' then readBraced? none rest
    else if Decimal.digitValue c < 16 then readHex? 2 (Decimal.digitValue c) rest
    else none

/-- The pieces from a number in braces on, of which `value` has been read. -/
def readBraced? (value : Option Nat) : List Char → Option (List Piece × List Char)
  | [] => none
  | c :: rest =>
    if c = '\x7d' then
      (value.bind pieceOf?).bind fun piece => push piece (readPieces? rest)
    else if Decimal.digitValue c < 16 then
      readBraced? (some (16 * value.getD 0 + Decimal.digitValue c)) rest
    else none

end

/-- The value of the literal at the front of a text, and what follows it. -/
def read? : List Char → Option (String × List Char)
  | '"' :: rest =>
    (readPieces? rest).bind fun (pieces, rest) =>
      (textOf? pieces).map fun text => (.ofList text, rest)
  | _ => none

/-! ### Plain texts -/

/-- A character that may stand between quotes and stands for itself there. -/
def StandsForItself (c : Char) : Prop := c ≠ '"' ∧ c ≠ '\\' ∧ c ≠ '\n' ∧ c ≠ '\r'

instance (c : Char) : Decidable (StandsForItself c) := inferInstanceAs (Decidable (_ ∧ _))

/-- A character that stands for itself is read as itself. -/
theorem readPieces?_of_standsForItself {c : Char} (h : StandsForItself c) (rest : List Char) :
    readPieces? (c :: rest) = push (.char c) (readPieces? rest) := by
  obtain ⟨hquote, hbackslash, hlf, hcr⟩ := h
  rw [readPieces?, if_neg hquote, if_neg hbackslash, if_neg (not_or.mpr ⟨hlf, hcr⟩)]

/-- A text of such characters is read up to the quote. -/
theorem readPieces?_plain {cs : List Char} (h : ∀ c ∈ cs, StandsForItself c) (rest : List Char) :
    readPieces? (cs ++ '"' :: rest) = some (cs.map .char, rest) := by
  induction cs with
  | nil => rw [List.nil_append, readPieces?, if_pos rfl, List.map_nil]
  | cons c cs ih =>
      rw [List.cons_append, readPieces?_of_standsForItself (h c List.mem_cons_self),
        ih fun d hd => h d (List.mem_cons_of_mem c hd)]
      rfl

/-- Pieces that are characters make the text of these characters. -/
theorem textOf?_map_char (cs : List Char) : textOf? (cs.map .char) = some cs := by
  induction cs with
  | nil => rfl
  | cons c cs ih => rw [List.map_cons, textOf?, ih, Option.map_some]

/-- Plain characters up to a quote are the value of the literal. -/
theorem read?_of_plain {cs : List Char} (h : ∀ c ∈ cs, StandsForItself c) (rest : List Char) :
    read? ('"' :: (cs ++ '"' :: rest)) = some (.ofList cs, rest) := by
  simp only [read?, readPieces?_plain h, Option.bind_some, textOf?_map_char, Option.map_some]

/-- Where backslashes and line ends are missing, a text is pasted between quotes faithfully if and
only if it has no quote itself. -/
theorem read?_pasted_iff {s : String} (h : ∀ c ∈ s.toList, c ≠ '"' → StandsForItself c)
    (rest : List Char) :
    read? ('"' :: (s.toList ++ '"' :: rest)) = some (s, rest) ↔ '"' ∉ s.toList := by
  constructor
  · -- up to the first quote in it the text is a literal that is too short
    intro hread hquote
    obtain ⟨before, after, hs, hbefore⟩ := List.eq_append_cons_of_mem hquote
    have hplain : ∀ c ∈ before, StandsForItself c := fun c hc =>
      h c (hs ▸ List.mem_append_left _ hc) fun heq => hbefore (heq ▸ hc)
    rw [hs, List.append_assoc, List.cons_append, read?_of_plain hplain] at hread
    obtain ⟨hvalue, -⟩ := Prod.mk.inj (Option.some.inj hread)
    have hlength := congrArg (·.toList.length) hvalue
    simp only [String.toList_ofList, hs, List.length_append, List.length_cons] at hlength
    omega
  · intro hquote
    have hplain : ∀ c ∈ s.toList, StandsForItself c := fun c hc =>
      h c hc fun heq => hquote (heq ▸ hc)
    rw [read?_of_plain hplain, String.ofList_toList]

/-! ### Quoted texts -/

/-- A piece that spells one character, whatever follows it. -/
def Spells (piece : Piece) (c : Char) : Prop :=
  ∀ rest, textOf? (piece :: rest) = (textOf? rest).map (c :: ·)

/-- A character spells itself. -/
theorem spells_char (c : Char) : Spells (.char c) c := fun rest => by rw [textOf?]

/-- A unit below those that come in pairs spells its character. -/
theorem spells_unit {c : Char} (h : c.toNat < 0xD800) : Spells (.unit c.toNat) c := by
  have hlow : ¬ (0xD800 ≤ c.toNat ∧ c.toNat < 0xDC00) := by omega
  have hhigh : ¬ (0xDC00 ≤ c.toNat ∧ c.toNat < 0xE000) := by omega
  have hneither : ¬ (0xD800 ≤ c.toNat ∧ c.toNat < 0xE000) := by omega
  intro rest
  match rest with
  | [] => simp only [textOf?, if_neg hneither, Char.ofNat_toNat]
  | .char d :: rest => simp only [textOf?, if_neg hneither, Char.ofNat_toNat]
  | .unit low :: rest => simp only [textOf?, if_neg hlow, if_neg hhigh, Char.ofNat_toNat]

/-- A hexadecimal digit has the value that it was written for. -/
theorem digitValue_hexDigit {n : Nat} (h : n < 16) : Decimal.digitValue (Text.hexDigit n) = n := by
  have hall : ∀ n : Fin 16, Decimal.digitValue (Text.hexDigit n) = n := by decide
  exact hall ⟨n, h⟩

/-- Four hexadecimal digits after `u` are read as the number that they spell. -/
theorem readPieces?_unicode {n : Nat} (h : n < 0x100) (rest : List Char) :
    readPieces? ('\\' :: 'u' :: '0' :: '0' ::
        Text.hexDigit (n / 16) :: Text.hexDigit (n % 16) :: rest) =
      push (.unit n) (readPieces? rest) := by
  have hzero : Decimal.digitValue '0' = 0 := rfl
  have hhigh : Decimal.digitValue (Text.hexDigit (n / 16)) = n / 16 :=
    digitValue_hexDigit (by omega)
  have hlow : Decimal.digitValue (Text.hexDigit (n % 16)) = n % 16 :=
    digitValue_hexDigit (by omega)
  have hn : 16 * (16 * (16 * 0 + 0) + n / 16) + n % 16 = n := by omega
  have hunit : readHex? 2 0 ('0' :: Text.hexDigit (n / 16) :: Text.hexDigit (n % 16) :: rest) =
      push (.unit n) (readPieces? rest) := by
    simp only [readHex?, hzero, hhigh, hlow, hn]
    rw [if_pos (by decide), if_pos (by omega), if_pos (by omega)]
  exact hunit

/-- What `Text.escape` writes is read as one piece, which spells the character. -/
theorem exists_readPieces?_escape (c : Char) :
    ∃ piece, Spells piece c ∧
      ∀ rest, readPieces? (Text.escape c ++ rest) = push piece (readPieces? rest) := by
  unfold Text.escape
  split
  iterate 5 exact ⟨.char _, spells_char _, fun rest => rfl⟩
  rename_i hquote hbackslash hlf hcr _
  split
  · rename_i hb
    exact ⟨.char c, spells_char c, fun rest => by
      rw [← Char.ofNat_toNat c, hb]; rfl⟩
  split
  · rename_i hf
    exact ⟨.char c, spells_char c, fun rest => by
      rw [← Char.ofNat_toNat c, hf]; rfl⟩
  split
  · rename_i hcontrol
    exact ⟨.unit c.toNat, spells_unit (by omega), fun rest => readPieces?_unicode (by omega) rest⟩
  · exact ⟨.char c, spells_char c, readPieces?_of_standsForItself ⟨hquote, hbackslash, hlf, hcr⟩⟩

/-- What is escaped is read as pieces that make the text again. -/
theorem readPieces?_flatMap_escape (cs rest : List Char) :
    ∃ pieces, textOf? pieces = some cs ∧
      readPieces? (cs.flatMap Text.escape ++ '"' :: rest) = some (pieces, rest) := by
  induction cs with
  | nil => exact ⟨[], rfl, by rw [List.flatMap_nil, List.nil_append, readPieces?, if_pos rfl]⟩
  | cons c cs ih =>
      obtain ⟨pieces, htext, hread⟩ := ih
      obtain ⟨piece, hspells, hescape⟩ := exists_readPieces?_escape c
      refine ⟨piece :: pieces, by rw [hspells, htext, Option.map_some], ?_⟩
      rw [List.flatMap_cons, List.append_assoc, hescape, hread]
      rfl

/-- A quoted text is a literal whose value is the text. -/
theorem read?_quoted (s : String) (rest : List Char) :
    read? ((Text.quoted s).toList ++ rest) = some (s, rest) := by
  obtain ⟨pieces, htext, hread⟩ := readPieces?_flatMap_escape s.toList rest
  have htext' : (Text.quoted s).toList ++ rest =
      '"' :: (s.toList.flatMap Text.escape ++ '"' :: rest) := by
    rw [Text.quoted, String.toList_ofList]
    simp only [List.cons_append, List.append_assoc, List.nil_append]
  rw [htext']
  simp only [read?, hread, Option.bind_some, htext, Option.map_some, String.ofList_toList]

end OpenApiZod.StringLiteral
