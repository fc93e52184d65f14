import OpenApiZod.Proofs.Numerals
import OpenApiZod.Proofs.PathSegments
import OpenApiZod.Proofs.StringLiteral
import OpenApiZod.Script

/-!
# Phrases

A phrase is the syntax tree of an expression, without any meaning: words with calls of methods after
them, numerals, string literals, regular expressions, lists, records and functions without
parameters. `Phrase.read?` reads one from a text.

What is written for a well-formed phrase is read as that phrase (`Phrase.read?_render`). So no word
and no string in it can be taken for anything else, whatever characters it has.
-/

namespace OpenApiZod

/-- A syntax tree. The calls of a chain are in the order in which they are written; numerals are
kept as they are spelt. -/
inductive Phrase
  | chain (head : String) (calls : List (String × List Phrase))
  | number (spelling : String)
  | quoted (value : String)
  | regExp (source : String)
  | list (items : List Phrase)
  | record (fields : List (String × Phrase))
  | thunk (name : String)
deriving Repr, Inhabited

namespace Phrase

/-! ### Writing -/

mutual

/-- The text of a phrase. -/
def render : Phrase → String
  | .chain head calls => head ++ renderCalls calls
  | .number spelling => spelling
  | .quoted value => Text.quoted value
  | .regExp source => "new RegExp(" ++ Text.quoted source ++ ")"
  | .list items => "[" ++ Text.separated ", " (renderAll items) ++ "]"
  | .record fields => "\x7b " ++ Text.separated ", " (renderFields fields) ++ " \x7d"
  | .thunk name => "() => " ++ name

/-- The texts of phrases. -/
def renderAll : List Phrase → List String
  | [] => []
  | p :: rest => render p :: renderAll rest

/-- The texts of the fields of a record. -/
def renderFields : List (String × Phrase) → List String
  | [] => []
  | (name, p) :: rest => (Script.key name ++ ": " ++ render p) :: renderFields rest

/-- The text of calls. -/
def renderCalls : List (String × List Phrase) → String
  | [] => ""
  | (method, arguments) :: rest =>
    "." ++ method ++ "(" ++ Text.separated ", " (renderAll arguments) ++ ")" ++ renderCalls rest

end

mutual

/-- Words are identifiers, numbers are spelt as numerals, and a record has fields. -/
def WellFormed : Phrase → Prop
  | .chain head calls => Identifier.isIdentifier head = true ∧ WellFormedCalls calls
  | .number spelling => IsNumeral spelling.toList
  | .quoted _ => True
  | .regExp _ => True
  | .list items => WellFormedAll items
  | .record fields => fields ≠ [] ∧ WellFormedFields fields
  | .thunk name => Identifier.isIdentifier name = true

/-- All phrases are well formed. -/
def WellFormedAll : List Phrase → Prop
  | [] => True
  | p :: rest => WellFormed p ∧ WellFormedAll rest

/-- The values of all fields are well formed. -/
def WellFormedFields : List (String × Phrase) → Prop
  | [] => True
  | (_, p) :: rest => WellFormed p ∧ WellFormedFields rest

/-- The names and arguments of all calls are well formed. -/
def WellFormedCalls : List (String × List Phrase) → Prop
  | [] => True
  | (method, arguments) :: rest =>
    Identifier.isIdentifier method = true ∧ WellFormedAll arguments ∧ WellFormedCalls rest

end

/-! ### Reading -/

/-- The word at the front, and what follows it. -/
def readWord? : List Char → Option (String × List Char)
  | [] => none
  | c :: rest =>
    if Identifier.isStart c then
      some (.ofList (c :: rest.takeWhile Identifier.isPart), rest.dropWhile Identifier.isPart)
    else none

/-- The name of a property at the front, bare or quoted, and what follows it. -/
def readKey? (cs : List Char) : Option (String × List Char) :=
  if cs.head? = some '"' then StringLiteral.read? cs else readWord? cs

/-- The regular expression at the front, and what follows it. -/
def readRegExp? (cs : List Char) : Option (Phrase × List Char) :=
  (Json.afterWord? "new RegExp(" cs).bind fun rest =>
    (StringLiteral.read? rest).bind fun (source, rest) =>
      (Json.afterWord? ")" rest).map fun rest => (.regExp source, rest)

/-- The numeral at the front, and what follows it. -/
def readNumeral? (cs : List Char) : Option (Phrase × List Char) :=
  (Json.readNumber? cs).map fun (_, rest) =>
    (.number (.ofList (cs.take (cs.length - rest.length))), rest)

mutual

/-- The phrase at the front, and what follows it. The first argument bounds the depth of the
search. -/
def readPhrase? : Nat → List Char → Option (Phrase × List Char)
  | 0, _ => none
  | _ + 1, [] => none
  | n + 1, c :: rest =>
    if c = '"' then
      (StringLiteral.read? (c :: rest)).map fun (value, rest) => (.quoted value, rest)
    else if c = '[' then
      (readItems? n ']' rest).map fun (items, rest) => (.list items, rest)
    else if c = '\x7b' then
      (Json.afterWord? " " rest).bind fun rest =>
        (readFields? n rest).map fun (fields, rest) => (.record fields, rest)
    else if c = '(' then
      (Json.afterWord? ") => " rest).bind fun rest =>
        (readWord? rest).map fun (name, rest) => (.thunk name, rest)
    else
      (readRegExp? (c :: rest)).or <|
        ((readWord? (c :: rest)).bind fun (head, rest) =>
          (readCalls? n rest).map fun (calls, rest) => (.chain head calls, rest)).or <|
        readNumeral? (c :: rest)

/-- The phrases up to a closing bracket, and what follows it. -/
def readItems? : Nat → Char → List Char → Option (List Phrase × List Char)
  | 0, _, _ => none
  | n + 1, close, cs =>
    if cs.head? = some close then some ([], cs.tail) else readMore? n close cs

/-- The phrases up to a closing bracket, one at least, and what follows it. -/
def readMore? : Nat → Char → List Char → Option (List Phrase × List Char)
  | 0, _, _ => none
  | n + 1, close, cs =>
    (readPhrase? n cs).bind fun (p, rest) =>
      if rest.head? = some close then some ([p], rest.tail)
      else (Json.afterWord? ", " rest).bind fun rest =>
        (readMore? n close rest).map fun (items, rest) => (p :: items, rest)

/-- The fields of a record up to its end, and what follows it. -/
def readFields? : Nat → List Char → Option (List (String × Phrase) × List Char)
  | 0, _ => none
  | n + 1, cs =>
    (readKey? cs).bind fun (name, rest) =>
      (Json.afterWord? ": " rest).bind fun rest =>
        (readPhrase? n rest).bind fun (p, rest) =>
          ((Json.afterWord? " \x7d" rest).map fun rest => ([(name, p)], rest)).or <|
            (Json.afterWord? ", " rest).bind fun rest =>
              (readFields? n rest).map fun (fields, rest) => ((name, p) :: fields, rest)

/-- The calls at the front, if there are any, and what follows them. -/
def readCalls? : Nat → List Char → Option (List (String × List Phrase) × List Char)
  | 0, _ => none
  | n + 1, cs =>
    match Json.afterWord? "." cs with
    | none => some ([], cs)
    | some rest =>
      (readWord? rest).bind fun (method, rest) =>
        (Json.afterWord? "(" rest).bind fun rest =>
          (readItems? n ')' rest).bind fun (arguments, rest) =>
            (readCalls? n rest).map fun (calls, rest) => ((method, arguments) :: calls, rest)

end

/-- The phrase that a whole text spells. -/
def read? (s : String) : Option Phrase :=
  match readPhrase? (2 * s.toList.length + 1) s.toList with
  | some (p, []) => some p
  | _ => none

/-! ### Words -/

/-- A word is read where it stands, and what follows it is left. -/
theorem afterWord?_append (word : String) (rest : List Char) :
    Json.afterWord? word (word.toList ++ rest) = some rest := by
  rw [Json.afterWord?, if_pos (List.isPrefixOf_iff_prefix.mpr (List.prefix_append _ _)),
    ← String.length_toList, List.drop_left]

/-- The word between two items is read where it stands. -/
theorem afterWord?_comma (rest : List Char) :
    Json.afterWord? ", " (',' :: ' ' :: rest) = some rest :=
  afterWord?_append ", " rest

/-- A word that was read stood there. -/
theorem eq_append_of_afterWord? {word : String} {cs rest : List Char}
    (h : Json.afterWord? word cs = some rest) : cs = word.toList ++ rest := by
  rw [Json.afterWord?] at h
  split at h
  · rename_i hprefix
    obtain ⟨tail, rfl⟩ := List.isPrefixOf_iff_prefix.mp hprefix
    rw [← String.length_toList, List.drop_left] at h
    rw [Option.some.inj h]
  · exact nomatch h

/-- An identifier has a first character, which may start it, and others, which may go on with it. -/
theorem exists_cons_of_isIdentifier {name : String} (h : Identifier.isIdentifier name = true) :
    ∃ c cs, name.toList = c :: cs ∧ Identifier.isStart c = true ∧
      ∀ d ∈ cs, Identifier.isPart d = true := by
  rw [Identifier.isIdentifier] at h
  split at h
  · exact absurd h Bool.false_ne_true
  · rename_i c cs hcs
    obtain ⟨hstart, hparts⟩ := (Bool.and_eq_true _ _).mp h
    exact ⟨c, cs, hcs, hstart, List.all_eq_true.mp hparts⟩

/-- No part of a word. -/
def EndsWord (rest : List Char) : Prop := ∀ c ∈ rest.head?, Identifier.isPart c = false

/-- A word ends where a character comes that is no part of one. -/
theorem EndsWord.cons {c : Char} (h : Identifier.isPart c = false) (cs : List Char) :
    EndsWord (c :: cs) := by
  intro d hd
  obtain rfl := Option.some.inj hd
  exact h

/-- An identifier is read back where the word ends after it. -/
theorem readWord?_append {name : String} {rest : List Char}
    (h : Identifier.isIdentifier name = true) (hrest : EndsWord rest) :
    readWord? (name.toList ++ rest) = some (name, rest) := by
  obtain ⟨c, cs, hname, hstart, hparts⟩ := exists_cons_of_isIdentifier h
  obtain ⟨htake, hdrop⟩ := takeWhile_dropWhile_append hparts hrest
  rw [hname, List.cons_append, readWord?, if_pos hstart, htake, hdrop, ← hname,
    String.ofList_toList]

/-- So is the name of a property, bare or quoted. -/
theorem readKey?_append (name : String) {rest : List Char} (hrest : EndsWord rest) :
    readKey? ((Script.key name).toList ++ rest) = some (name, rest) := by
  rw [Script.key]
  split
  · rename_i hname
    obtain ⟨c, cs, heq, hstart, -⟩ := exists_cons_of_isIdentifier hname
    have hquote : ¬ (name.toList ++ rest).head? = some '"' := by
      rw [heq]
      intro hc
      obtain rfl := Option.some.inj hc
      exact absurd hstart (by decide)
    rw [readKey?, if_neg hquote, readWord?_append hname hrest]
  · have hquote : ((Text.quoted name).toList ++ rest).head? = some '"' := by
      rw [Text.quoted, String.toList_ofList]
      rfl
    rw [readKey?, if_pos hquote, StringLiteral.read?_quoted]

/-! ### What may follow a phrase -/

/-- What follows a phrase: the end of the text, a comma, or what closes a list or a record. -/
inductive Closes : List Char → Prop
  | done : Closes []
  | comma (rest : List Char) : Closes (',' :: rest)
  | parenthesis (rest : List Char) : Closes (')' :: rest)
  | bracket (rest : List Char) : Closes (']' :: rest)
  | brace (rest : List Char) : Closes (' ' :: '\x7d' :: rest)

/-- The characters that may come first after a phrase. -/
theorem Closes.head_mem {rest : List Char} (h : Closes rest) :
    ∀ c ∈ rest.head?, c ∈ [',', ')', ']', ' '] := by
  intro c hc
  cases h with
  | done => exact nomatch hc
  | comma | parenthesis | bracket | brace =>
      obtain rfl := Option.some.inj hc
      decide

/-- None of them goes on with a word. -/
theorem Closes.endsWord {rest : List Char} (h : Closes rest) : EndsWord rest := by
  have hall : ∀ c ∈ [',', ')', ']', ' '], Identifier.isPart c = false :=
    List.all_iff_forall_prop.mp (by decide)
  exact fun c hc => hall c (h.head_mem c hc)

/-- None of them goes on with a numeral. -/
theorem Closes.endsNumeral {rest : List Char} (h : Closes rest) : EndsNumeral rest := by
  have hall : ∀ c ∈ [',', ')', ']', ' '], c.isDigit = false ∧ c ≠ '.' ∧ c ≠ 'e' ∧ c ≠ 'E' :=
    List.all_iff_forall_prop.mp (by decide)
  exact fun c hc => hall c (h.head_mem c hc)

/-- No method is called after a phrase. -/
theorem Closes.afterWord?_dot {rest : List Char} (h : Closes rest) :
    Json.afterWord? "." rest = none := by
  cases h <;> rfl

/-- No phrase is taken for the keyword of a regular expression because of what follows it. -/
theorem Closes.ne_regExp {rest : List Char} (h : Closes rest) (tail : List Char) :
    rest ≠ ' ' :: 'R' :: tail := by
  cases h <;> simp

/-! ### The text of a phrase -/

/-- The characters of calls: a point, the method and its arguments, then the other calls. -/
theorem toList_renderCalls_cons (method : String) (arguments : List Phrase)
    (calls : List (String × List Phrase)) :
    (renderCalls ((method, arguments) :: calls)).toList =
      '.' :: (method.toList ++ '(' :: ((Text.separated ", " (renderAll arguments)).toList ++
        ')' :: (renderCalls calls).toList)) := by
  rw [renderCalls]
  simp only [String.toList_append, List.append_assoc]
  rfl

/-- The characters of a regular expression. -/
theorem toList_render_regExp (source : String) :
    (render (.regExp source)).toList =
      "new RegExp(".toList ++ ((Text.quoted source).toList ++ [')']) := by
  rw [render]
  simp only [String.toList_append, List.append_assoc]
  rfl

/-- The characters of a list. -/
theorem toList_render_list (items : List Phrase) :
    (render (.list items)).toList =
      '[' :: ((Text.separated ", " (renderAll items)).toList ++ [']']) := by
  rw [render]
  simp only [String.toList_append, List.append_assoc]
  rfl

/-- The characters of a record. -/
theorem toList_render_record (fields : List (String × Phrase)) :
    (render (.record fields)).toList =
      '\x7b' :: ' ' :: ((Text.separated ", " (renderFields fields)).toList ++ [' ', '\x7d']) := by
  rw [render]
  simp only [String.toList_append, List.append_assoc]
  rfl

/-- The characters of a deferred name. -/
theorem toList_render_thunk (name : String) :
    (render (.thunk name)).toList = '(' :: (") => ".toList ++ name.toList) := by
  rw [render, String.toList_append]
  rfl

/-- A list of texts with what stands after the first. -/
theorem separated_cons_cons (separator s t : String) (rest : List String) :
    Text.separated separator (s :: t :: rest) =
      s ++ separator ++ Text.separated separator (t :: rest) :=
  rfl

/-- The characters of two items or more: the first, a comma, and the others. -/
theorem toList_separated_renderAll (p q : Phrase) (items : List Phrase) :
    (Text.separated ", " (renderAll (p :: q :: items))).toList =
      p.render.toList ++ ',' :: ' ' :: (Text.separated ", " (renderAll (q :: items))).toList := by
  rw [renderAll, renderAll, separated_cons_cons, String.toList_append, String.toList_append,
    List.append_assoc]
  rfl

/-- The characters of a field: its name, a colon and its value. -/
theorem toList_field (name : String) (p : Phrase) :
    (Script.key name ++ ": " ++ p.render).toList =
      (Script.key name).toList ++ ':' :: ' ' :: p.render.toList := by
  simp only [String.toList_append, List.append_assoc]
  rfl

/-- The characters of two fields or more: the first, a comma, and the others. -/
theorem toList_separated_renderFields (name : String) (p : Phrase) (next : String × Phrase)
    (fields : List (String × Phrase)) :
    (Text.separated ", " (renderFields ((name, p) :: next :: fields))).toList =
      (Script.key name).toList ++ ':' :: ' ' :: (p.render.toList ++
        ',' :: ' ' :: (Text.separated ", " (renderFields (next :: fields))).toList) := by
  obtain ⟨name', q⟩ := next
  rw [renderFields, renderFields, separated_cons_cons, String.toList_append, String.toList_append,
    toList_field]
  simp only [List.append_assoc, List.cons_append]
  rfl

/-- Calls start with a dot. -/
theorem endsWord_renderCalls (calls : List (String × List Phrase)) {rest : List Char}
    (hrest : Closes rest) : EndsWord ((renderCalls calls).toList ++ rest) := by
  cases calls with
  | nil => exact hrest.endsWord
  | cons call calls =>
      rw [toList_renderCalls_cons]
      exact .cons (by decide) _

/-- Neither do calls make a phrase look like a regular expression. -/
theorem renderCalls_ne_regExp (calls : List (String × List Phrase)) {rest : List Char}
    (hrest : Closes rest) (tail : List Char) :
    (renderCalls calls).toList ++ rest ≠ ' ' :: 'R' :: tail := by
  cases calls with
  | nil => exact hrest.ne_regExp tail
  | cons call calls =>
      rw [toList_renderCalls_cons]
      intro heq
      exact absurd (List.cons.inj heq).1 (by decide)

/-! ### Reading what is written -/

/-- No word with calls after it is taken for a regular expression, not even the word `new`. -/
theorem readRegExp?_word {name : String} {rest : List Char}
    (h : Identifier.isIdentifier name = true) (hrest : EndsWord rest)
    (hblank : ∀ tail, rest ≠ ' ' :: 'R' :: tail) : readRegExp? (name.toList ++ rest) = none := by
  rw [readRegExp?, Option.bind_eq_none_iff]
  intro tail htail
  -- were it one, its first word would be `new` and a blank would follow
  have hword : readWord? (name.toList ++ rest) = some (name, rest) := readWord?_append h hrest
  rw [eq_append_of_afterWord? htail] at hword
  obtain ⟨-, hafter⟩ := Prod.mk.inj (Option.some.inj hword)
  exact absurd hafter.symm (hblank _)

/-- A text that starts with neither a quote nor a bracket is a regular expression, a chain or a
numeral. -/
theorem readPhrase?_of_not_bracket (n : Nat) {c : Char} (rest : List Char)
    (h : c ∉ ['"', '[', '\x7b', '(']) :
    readPhrase? (n + 1) (c :: rest) =
      (readRegExp? (c :: rest)).or
        (((readWord? (c :: rest)).bind fun (head, rest) =>
          (readCalls? n rest).map fun (calls, rest) => (.chain head calls, rest)).or
          (readNumeral? (c :: rest))) := by
  simp only [List.mem_cons, List.not_mem_nil, or_false, not_or] at h
  obtain ⟨hquote, hbracket, hbrace, hparenthesis⟩ := h
  rw [readPhrase?, if_neg hquote, if_neg hbracket, if_neg hbrace, if_neg hparenthesis]

/-- No phrase starts with a closing bracket. -/
theorem readPhrase?_close (n : Nat) {close : Char} (hclose : close = ')' ∨ close = ']')
    (rest : List Char) : readPhrase? n (close :: rest) = none := by
  cases n with
  | zero => rw [readPhrase?]
  | succ n =>
      rcases hclose with rfl | rfl
      · rw [readPhrase?_of_not_bracket n rest (by decide)]
        rfl
      · rw [readPhrase?_of_not_bracket n rest (by decide)]
        rfl

/-- No identifier starts with a digit. -/
theorem isStart_of_isDigit {c : Char} (h : c.isDigit = true) : Identifier.isStart c = false := by
  by_contra hstart
  have hdigit := Identifier.toNat_of_isDigit h
  have hrange := Identifier.toNat_of_isStart ((Bool.not_eq_false _).mp hstart)
  omega

/-- A number is read back as it is spelt. -/
theorem readPhrase?_number (n : Nat) {spelling : String} (h : IsNumeral spelling.toList)
    {rest : List Char} (hrest : Closes rest) :
    readPhrase? (n + 1) (spelling.toList ++ rest) = some (.number spelling, rest) := by
  have hnumeral : readNumeral? (spelling.toList ++ rest) = some (.number spelling, rest) := by
    obtain ⟨m, hm⟩ := h.read hrest.endsNumeral
    rw [readNumeral?, hm, Option.map_some]
    simp only [List.length_append, Nat.add_sub_cancel, List.take_left, String.ofList_toList]
  obtain ⟨c, cs, hcs, hc⟩ := h.exists_cons
  have hstart : Identifier.isStart c = false := by
    rcases hc with hc | rfl
    · exact isStart_of_isDigit hc
    · decide
  have hbracket : c ∉ ['"', '[', '\x7b', '('] := by
    intro hmem
    have hall : ∀ c ∈ ['"', '[', '\x7b', '('], ¬ (c.isDigit = true ∨ c = '-') :=
      List.all_iff_forall_prop.mp (by decide)
    exact hall c hmem hc
  have hregExp : readRegExp? (c :: (cs ++ rest)) = none := by
    rw [readRegExp?, Option.bind_eq_none_iff]
    intro tail htail
    obtain rfl := (List.cons.inj (eq_append_of_afterWord? htail)).1
    exact absurd hc (by decide)
  have hword : readWord? (c :: (cs ++ rest)) = none := by
    rw [readWord?, hstart, if_neg Bool.false_ne_true]
  rw [hcs, List.cons_append] at hnumeral ⊢
  rw [readPhrase?_of_not_bracket n _ hbracket, hregExp, hword, hnumeral]
  rfl

/-- A regular expression is read back. -/
theorem readPhrase?_regExp (n : Nat) (source : String) (rest : List Char) :
    readPhrase? (n + 1) ((render (.regExp source)).toList ++ rest) =
      some (.regExp source, rest) := by
  have hread : readRegExp? ((render (.regExp source)).toList ++ rest) =
      some (.regExp source, rest) := by
    rw [toList_render_regExp, List.append_assoc, List.append_assoc, readRegExp?,
      afterWord?_append, Option.bind_some, StringLiteral.read?_quoted, Option.bind_some]
    show Option.map _ (Json.afterWord? ")" (")".toList ++ rest)) = _
    rw [afterWord?_append, Option.map_some]
  have hcons : (render (.regExp source)).toList ++ rest =
      'n' :: (("ew RegExp(".toList ++ ((Text.quoted source).toList ++ [')'])) ++ rest) := by
    rw [toList_render_regExp]
    rfl
  rw [hcons] at hread ⊢
  rw [readPhrase?_of_not_bracket n _ (by decide), hread]
  rfl

/-- What a search of the given depth reads: all texts of which twice the length is below it. Each
step into a phrase goes past one character at least and down at most two levels, so a depth of twice
the length of the text is enough. -/
structure ReadsBack (n : Nat) : Prop where
  phrase : ∀ p : Phrase, p.WellFormed → 2 * p.render.toList.length < n → ∀ rest, Closes rest →
    readPhrase? n (p.render.toList ++ rest) = some (p, rest)
  items : ∀ items, WellFormedAll items →
    2 * (Text.separated ", " (renderAll items)).toList.length + 2 < n →
    ∀ close, close = ')' ∨ close = ']' → ∀ rest,
      readItems? n close ((Text.separated ", " (renderAll items)).toList ++ close :: rest) =
        some (items, rest)
  more : ∀ p items, WellFormedAll (p :: items) →
    2 * (Text.separated ", " (renderAll (p :: items))).toList.length + 1 < n →
    ∀ close, close = ')' ∨ close = ']' → ∀ rest,
      readMore? n close ((Text.separated ", " (renderAll (p :: items))).toList ++ close :: rest) =
        some (p :: items, rest)
  fields : ∀ field fields, WellFormedFields (field :: fields) →
    2 * (Text.separated ", " (renderFields (field :: fields))).toList.length + 1 < n → ∀ rest,
      readFields? n ((Text.separated ", " (renderFields (field :: fields))).toList ++
        ' ' :: '\x7d' :: rest) = some (field :: fields, rest)
  calls : ∀ calls, WellFormedCalls calls → 2 * (renderCalls calls).toList.length + 1 < n →
    ∀ rest, Closes rest → readCalls? n ((renderCalls calls).toList ++ rest) = some (calls, rest)

namespace ReadsBack

variable {n : Nat}

/-- A chain of calls is read back if what stands in it is. -/
theorem chain (ih : ReadsBack n) {head : String} {calls : List (String × List Phrase)}
    (h : (Phrase.chain head calls).WellFormed)
    (hn : 2 * (Phrase.chain head calls).render.toList.length < n + 1) {rest : List Char}
    (hrest : Closes rest) :
    readPhrase? (n + 1) ((Phrase.chain head calls).render.toList ++ rest) =
      some (.chain head calls, rest) := by
  obtain ⟨hhead, hcalls⟩ := h
  rw [render, String.toList_append, List.length_append] at hn
  rw [render, String.toList_append, List.append_assoc]
  have hends := endsWord_renderCalls calls hrest
  obtain ⟨c, cs, hcs, hstart, -⟩ := exists_cons_of_isIdentifier hhead
  have hlength : 0 < head.toList.length := by
    rw [hcs]
    exact Nat.succ_pos cs.length
  have hread := ih.calls calls hcalls (by omega) rest hrest
  have hword := readWord?_append hhead hends
  have hregExp : readRegExp? (head.toList ++ ((renderCalls calls).toList ++ rest)) = none :=
    readRegExp?_word hhead hends (renderCalls_ne_regExp calls hrest)
  have hbracket : c ∉ ['"', '[', '\x7b', '('] := by
    intro hmem
    have hall : ∀ c ∈ ['"', '[', '\x7b', '('], Identifier.isStart c = false :=
      List.all_iff_forall_prop.mp (by decide)
    rw [hall c hmem] at hstart
    exact Bool.false_ne_true hstart
  rw [hcs, List.cons_append] at hregExp hword ⊢
  rw [readPhrase?_of_not_bracket n _ hbracket]
  simp only [hregExp, hword, Option.bind_some, hread, Option.map_some, Option.none_or,
    Option.some_or]

/-- A list is read back if its items are. -/
theorem list (ih : ReadsBack n) {items : List Phrase} (h : WellFormedAll items)
    (hn : 2 * (Phrase.list items).render.toList.length < n + 1) (rest : List Char) :
    readPhrase? (n + 1) ((Phrase.list items).render.toList ++ rest) =
      some (.list items, rest) := by
  rw [toList_render_list] at hn ⊢
  simp only [List.length_cons, List.length_append] at hn
  have hread := ih.items items h (by omega) ']' (Or.inr rfl) rest
  simp only [List.cons_append, List.append_assoc, List.nil_append]
  rw [readPhrase?, if_neg (by decide), if_pos rfl, hread, Option.map_some]

/-- A record is read back if its fields are. -/
theorem record (ih : ReadsBack n) {field : String × Phrase} {fields : List (String × Phrase)}
    (h : WellFormedFields (field :: fields))
    (hn : 2 * (Phrase.record (field :: fields)).render.toList.length < n + 1) (rest : List Char) :
    readPhrase? (n + 1) ((Phrase.record (field :: fields)).render.toList ++ rest) =
      some (.record (field :: fields), rest) := by
  rw [toList_render_record] at hn ⊢
  simp only [List.length_cons, List.length_append] at hn
  have hread := ih.fields field fields h (by omega) rest
  have hblank (cs : List Char) : Json.afterWord? " " (' ' :: cs) = some cs :=
    afterWord?_append " " cs
  simp only [List.cons_append, List.append_assoc, List.nil_append]
  rw [readPhrase?, if_neg (by decide), if_neg (by decide), if_pos rfl, hblank, Option.bind_some,
    hread, Option.map_some]

/-- A deferred name is read back. -/
theorem thunk {name : String} (h : Identifier.isIdentifier name = true) {rest : List Char}
    (hrest : Closes rest) :
    readPhrase? (n + 1) ((Phrase.thunk name).render.toList ++ rest) = some (.thunk name, rest) := by
  rw [toList_render_thunk, List.cons_append, List.append_assoc, readPhrase?,
    if_neg (by decide), if_neg (by decide), if_neg (by decide), if_pos rfl,
    afterWord?_append, Option.bind_some, readWord?_append h hrest.endsWord, Option.map_some]

/-- A quoted text is read back. -/
theorem quoted (value : String) (rest : List Char) :
    readPhrase? (n + 1) ((Phrase.quoted value).render.toList ++ rest) =
      some (.quoted value, rest) := by
  have hread := StringLiteral.read?_quoted value rest
  rw [render]
  rw [Text.quoted, String.toList_ofList] at hread ⊢
  simp only [List.cons_append] at hread ⊢
  rw [readPhrase?, if_pos rfl, hread, Option.map_some]

/-- One step of reading a phrase, by its kind. -/
theorem phrase_succ (ih : ReadsBack n) (p : Phrase) (h : p.WellFormed)
    (hn : 2 * p.render.toList.length < n + 1) (rest : List Char) (hrest : Closes rest) :
    readPhrase? (n + 1) (p.render.toList ++ rest) = some (p, rest) := by
  cases p with
  | chain head calls => exact ih.chain h hn hrest
  | number spelling => exact readPhrase?_number n h hrest
  | quoted value => exact quoted value rest
  | regExp source => exact readPhrase?_regExp n source rest
  | list items => exact ih.list h hn rest
  | record fields =>
      cases fields with
      | nil => exact absurd rfl h.1
      | cons field fields => exact ih.record h.2 hn rest
  | thunk name => exact thunk h hrest

/-- One step of reading items: the end of an empty list, or its first item. -/
theorem items_succ (ih : ReadsBack n) (items : List Phrase) (h : WellFormedAll items)
    (hn : 2 * (Text.separated ", " (renderAll items)).toList.length + 2 < n + 1) (close : Char)
    (hclose : close = ')' ∨ close = ']') (rest : List Char) :
    readItems? (n + 1) close ((Text.separated ", " (renderAll items)).toList ++ close :: rest) =
      some (items, rest) := by
  cases items with
  | nil =>
      have hempty : (Text.separated ", " (renderAll [])).toList ++ close :: rest =
          close :: rest := by
        rw [renderAll, Text.separated]
        rfl
      rw [hempty, readItems?, if_pos List.head?_cons, List.tail_cons]
  | cons p items =>
      have hread := ih.more p items h (by omega) close hclose rest
      -- the list is not over, since no phrase starts with a closing bracket
      have hopen : ¬ ((Text.separated ", " (renderAll (p :: items))).toList ++
          close :: rest).head? = some close := by
        intro hhead
        obtain ⟨tail, htail⟩ := List.head?_eq_some_iff.mp hhead
        cases n with
        | zero => omega
        | succ n =>
            rw [htail, readMore?, readPhrase?_close n hclose] at hread
            exact nomatch hread
      rw [readItems?, if_neg hopen, hread]

/-- One step of reading the items of a list that is not empty. -/
theorem more_succ (ih : ReadsBack n) (p : Phrase) (items : List Phrase)
    (h : WellFormedAll (p :: items))
    (hn : 2 * (Text.separated ", " (renderAll (p :: items))).toList.length + 1 < n + 1)
    (close : Char) (hclose : close = ')' ∨ close = ']') (rest : List Char) :
    readMore? (n + 1) close
        ((Text.separated ", " (renderAll (p :: items))).toList ++ close :: rest) =
      some (p :: items, rest) := by
  obtain ⟨hp, hitems⟩ := h
  cases items with
  | nil =>
      have hends : Closes (close :: rest) := by
        rcases hclose with rfl | rfl
        · exact .parenthesis rest
        · exact .bracket rest
      rw [renderAll, renderAll, Text.separated] at hn ⊢
      have hread := ih.phrase p hp (by omega) _ hends
      rw [readMore?]
      simp only [hread, Option.bind_some, List.head?_cons, if_true, List.tail_cons]
  | cons q items =>
      rw [toList_separated_renderAll] at hn ⊢
      simp only [List.length_append, List.length_cons] at hn
      have hread := ih.phrase p hp (by omega) _
        (.comma (' ' :: ((Text.separated ", " (renderAll (q :: items))).toList ++ close :: rest)))
      have hmore := ih.more q items hitems (by omega) close hclose rest
      have hne : ¬ some ',' = some close := by
        rcases hclose with rfl | rfl <;> decide
      simp only [List.append_assoc, List.cons_append]
      rw [readMore?]
      simp only [hread, Option.bind_some, List.head?_cons, hne, if_false, afterWord?_comma, hmore,
        Option.map_some]

/-- One step of reading fields. -/
theorem fields_succ (ih : ReadsBack n) (field : String × Phrase) (fields : List (String × Phrase))
    (h : WellFormedFields (field :: fields))
    (hn : 2 * (Text.separated ", " (renderFields (field :: fields))).toList.length + 1 < n + 1)
    (rest : List Char) :
    readFields? (n + 1) ((Text.separated ", " (renderFields (field :: fields))).toList ++
      ' ' :: '\x7d' :: rest) = some (field :: fields, rest) := by
  obtain ⟨name, p⟩ := field
  obtain ⟨hp, hfields⟩ := h
  have hcolon (cs : List Char) : Json.afterWord? ": " (':' :: ' ' :: cs) = some cs :=
    afterWord?_append ": " cs
  have hkey (cs : List Char) : readKey? ((Script.key name).toList ++ ':' :: cs) =
      some (name, ':' :: cs) :=
    readKey?_append name (.cons (by decide) cs)
  cases fields with
  | nil =>
      rw [renderFields, renderFields, Text.separated, toList_field] at hn ⊢
      simp only [List.length_append, List.length_cons] at hn
      have hread := ih.phrase p hp (by omega) _ (.brace rest)
      have hbrace : Json.afterWord? " \x7d" (' ' :: '\x7d' :: rest) = some rest :=
        afterWord?_append " \x7d" rest
      simp only [List.append_assoc, List.cons_append]
      rw [readFields?]
      simp only [hkey, hcolon, hread, Option.bind_some, hbrace, Option.map_some, Option.some_or]
  | cons next fields =>
      rw [toList_separated_renderFields] at hn ⊢
      simp only [List.length_append, List.length_cons] at hn
      have hread := ih.phrase p hp (by omega) _ (.comma
        (' ' :: ((Text.separated ", " (renderFields (next :: fields))).toList ++
          ' ' :: '\x7d' :: rest)))
      have hfields := ih.fields next fields hfields (by omega) rest
      have hbrace (cs : List Char) : Json.afterWord? " \x7d" (',' :: cs) = none := rfl
      simp only [List.append_assoc, List.cons_append]
      rw [readFields?]
      simp only [hkey, hcolon, hread, Option.bind_some, hbrace, Option.map_none, Option.none_or,
        afterWord?_comma, hfields, Option.map_some]

/-- One step of reading calls. -/
theorem calls_succ (ih : ReadsBack n) (calls : List (String × List Phrase))
    (h : WellFormedCalls calls) (hn : 2 * (renderCalls calls).toList.length + 1 < n + 1)
    (rest : List Char) (hrest : Closes rest) :
    readCalls? (n + 1) ((renderCalls calls).toList ++ rest) = some (calls, rest) := by
  cases calls with
  | nil =>
      have hempty : (renderCalls []).toList ++ rest = rest := by
        rw [renderCalls]
        rfl
      rw [hempty, readCalls?, hrest.afterWord?_dot]
  | cons call calls =>
      obtain ⟨method, arguments⟩ := call
      obtain ⟨hmethod, harguments, hcalls⟩ := h
      rw [toList_renderCalls_cons] at hn ⊢
      simp only [List.length_cons, List.length_append] at hn
      have hitems := ih.items arguments harguments (by omega) ')' (Or.inl rfl)
        ((renderCalls calls).toList ++ rest)
      have hread := ih.calls calls hcalls (by omega) rest hrest
      have hdot (cs : List Char) : Json.afterWord? "." ('.' :: cs) = some cs :=
        afterWord?_append "." cs
      have hopen (cs : List Char) : Json.afterWord? "(" ('(' :: cs) = some cs :=
        afterWord?_append "(" cs
      have hword (cs : List Char) : readWord? (method.toList ++ '(' :: cs) =
          some (method, '(' :: cs) :=
        readWord?_append hmethod (.cons (by decide) cs)
      simp only [List.append_assoc, List.cons_append]
      rw [readCalls?]
      simp only [hdot, hword, hopen, hitems, hread, Option.bind_some, Option.map_some]

end ReadsBack

/-- Texts of all lengths are read back, by induction on the bound of the search. -/
theorem readsBack (n : Nat) : ReadsBack n := by
  induction n with
  | zero =>
      exact {
        phrase := fun _ _ hn => absurd hn (Nat.not_lt_zero _)
        items := fun _ _ hn => absurd hn (Nat.not_lt_zero _)
        more := fun _ _ _ hn => absurd hn (Nat.not_lt_zero _)
        fields := fun _ _ _ hn => absurd hn (Nat.not_lt_zero _)
        calls := fun _ _ hn => absurd hn (Nat.not_lt_zero _) }
  | succ n ih =>
      exact ⟨ih.phrase_succ, ih.items_succ, ih.more_succ, ih.fields_succ, ih.calls_succ⟩

/-- What is written for a well-formed phrase is read as that phrase. -/
theorem read?_render {p : Phrase} (h : p.WellFormed) : read? p.render = some p := by
  have hread := (readsBack _).phrase p h (Nat.lt_succ_self _) [] .done
  rw [List.append_nil] at hread
  rw [read?, hread]

end Phrase

end OpenApiZod
