import OpenApiZod.Decimal.Numeral
import OpenApiZod.Yaml.Cursor

/-!
# Scalars of a YAML text

The texts that scalars stand for: plain ones, ones in single or double quotes, and literal and
folded blocks. Line breaks inside a scalar are folded as its style asks.
-/

namespace OpenApiZod.Yaml

/-- How a scalar is written. -/
inductive Style
  | plain
  | quoted
  | literal
  | folded
deriving DecidableEq, Repr, Inhabited

/-- Line breaks folded: a single line feed is a blank, and of several the first disappears. -/
def fold (breaks : List Char) : List Char :=
  match breaks with
  | '\n' :: [] => [' ']
  | '\n' :: rest => rest
  | all => all

/-- The blanks and line breaks at the front: the blanks before the first break, the breaks, and
what follows. In plain scalars a tab to the left of the column `indent` is refused after a
break. -/
def gap? (indent : Option Int) (blanks breaks : List Char) (c : Cursor) :
    Option (List Char × List Char × Cursor) :=
  match hbreak : c.lineBreak? with
  | some (b, next) =>
    have := Cursor.lineBreak?_length_lt hbreak
    gap? indent blanks (breaks ++ [b]) next
  | none =>
    match _hrest : c.rest with
    | x :: rest =>
      if isSpace x then
        if breaks.isEmpty then gap? indent (blanks ++ [x]) breaks (c.step rest)
        else if x == '\t' && indent.any (fun i => (c.column : Int) < i) then none
        else gap? indent blanks breaks (c.step rest)
      else some (blanks, breaks, c)
    | [] => some (blanks, breaks, c)
termination_by c.rest.length
decreasing_by all_goals simp_all [Cursor.step]

/-- Reading a gap reads no character twice. -/
theorem gap?_length_le {indent : Option Int} {blanks breaks a b : List Char} {c next : Cursor}
    (h : gap? indent blanks breaks c = some (a, b, next)) : next.rest.length ≤ c.rest.length := by
  fun_induction gap? indent blanks breaks c with
  | case1 _ _ _ _ _ _ hlt ih => exact Nat.le_trans (ih h) (Nat.le_of_lt hlt)
  | case2 _ _ _ _ _ _ hrest _ _ ih => simpa [hrest, Cursor.step] using Nat.le_succ_of_le (ih h)
  | case3 => simp at h
  | case4 _ _ _ _ _ _ hrest _ _ _ ih => simpa [hrest, Cursor.step] using Nat.le_succ_of_le (ih h)
  | case5 => simp_all
  | case6 => simp_all

/-- Where a gap starts it takes at least one character. -/
theorem gap?_length_lt {indent : Option Int} {blanks breaks a b : List Char} {c next : Cursor}
    {x : Char} (h : gap? indent blanks breaks c = some (a, b, next))
    (hx : c.rest.head? = some x) (hseparator : isSeparator x) :
    next.rest.length < c.rest.length := by
  unfold gap? at h
  split at h
  · next hbreak => exact Nat.lt_of_le_of_lt (gap?_length_le h) (Cursor.lineBreak?_length_lt hbreak)
  · next hbreak =>
    have hspace : isSpace x := by
      have hnot : ¬ isBreak x := fun hb => by simpa [hbreak] using Cursor.lineBreak?_isSome hx hb
      simpa [isSeparator, hnot] using hseparator
    split at h
    · next y rest hrest =>
      obtain rfl : y = x := by simpa [hrest] using hx
      have hstep : (c.step rest).rest.length < c.rest.length := by simp [Cursor.step, hrest]
      simp only [hspace, if_true] at h
      split at h
      · exact Nat.lt_of_le_of_lt (gap?_length_le h) hstep
      · split at h
        · simp at h
        · exact Nat.lt_of_le_of_lt (gap?_length_le h) hstep
    · next hrest => simp [hrest] at hx

/-- What the gap between two parts of a scalar contributes to its text. -/
def gapText (blanks breaks : List Char) : List Char :=
  if breaks.isEmpty then blanks else fold breaks

/-! ### Plain scalars -/

/-- The characters at the front up to the end of a plain scalar's part. Inside brackets a colon
right before an indicator is refused. -/
def plainPart? (inFlow : Bool) : List Char → Option (List Char)
  | [] => some []
  | c :: rest =>
    if isSeparator c then some []
    else if inFlow && c == ':' && rest.head?.any (· ∈ [',', '?', '[', ']', '\x7b', '\x7d']) then none
    else if c == ':' && rest.head?.all isSeparator then some []
    else if inFlow && c ∈ [',', '[', ']', '\x7b', '\x7d'] then some []
    else (plainPart? inFlow rest).map (c :: ·)

/-- The plain scalar at the front, continued on lines indented to the column `indent`, with
whether it ended after a line break. `text` is what has been read of it, and `blanks` and `breaks`
are the gap after that. -/
def plain? (inFlow : Bool) (indent : Int) (text blanks breaks : List Char) (c : Cursor) :
    Option (List Char × Bool × Cursor) :=
  let done : Option (List Char × Bool × Cursor) := some (text, !breaks.isEmpty, c)
  if c.atDocumentMark || c.at_ '#' then done
  else
    match hpart : plainPart? inFlow c.rest with
    | none => none
    | some [] => done
    | some (x :: part) =>
      let text := text ++ gapText blanks breaks ++ x :: part
      let c' := c.skip (part.length + 1)
      have hc : c'.rest.length < c.rest.length := by
        refine Cursor.skip_length_lt (Nat.succ_pos _) fun hrest => ?_
        simp [hrest, plainPart?] at hpart
      match hgap : gap? (some indent) [] [] c' with
      | none => none
      | some ([], [], _) => some (text, false, c')
      | some (blanks, breaks, next) =>
        have := gap?_length_le hgap
        if !inFlow && (next.column : Int) < indent then some (text, !breaks.isEmpty, next)
        else plain? inFlow indent text blanks breaks next
termination_by c.rest.length

/-! ### Quoted scalars -/

/-- The character that an escape in double quotes stands for, or how many hexadecimal digits
name it. -/
def escapeMeaning? : Char → Option (Char ⊕ Nat)
  | '0' => some (.inl '\x00')
  | 'a' => some (.inl '\x07')
  | 'b' => some (.inl '\x08')
  | 't' => some (.inl '\t')
  | '\t' => some (.inl '\t')
  | 'n' => some (.inl '\n')
  | 'v' => some (.inl '\x0B')
  | 'f' => some (.inl '\x0C')
  | 'r' => some (.inl '\r')
  | 'e' => some (.inl '\x1B')
  | ' ' => some (.inl ' ')
  | '"' => some (.inl '"')
  | '/' => some (.inl '/')
  | '\\' => some (.inl '\\')
  | 'N' => some (.inl '\u0085')
  | '_' => some (.inl '\u00A0')
  | 'L' => some (.inl '\u2028')
  | 'P' => some (.inl '\u2029')
  | 'x' => some (.inr 2)
  | 'u' => some (.inr 4)
  | 'U' => some (.inr 8)
  | _ => none

/-- What follows the front of a quoted scalar. -/
inductive QuotedStop
  | gap
  | escapedBreak
  | close

/-- The part of a quoted scalar at the front without blanks, with what stops it and the number of
characters read. The quotes are `'` if `single`, else `"`. -/
def quotedPart? (single : Bool) (cs : List Char) : Option (List Char × QuotedStop × Nat) :=
  match cs with
  | [] => none
  | c :: rest =>
    if isSeparator c then some ([], .gap, 0)
    else if single && c == '\'' then
      match rest with
      | '\'' :: rest =>
        (quotedPart? single rest).map fun (text, stop, n) => ('\'' :: text, stop, n + 2)
      | _ => some ([], .close, 0)
    else if !single && c == '"' then some ([], .close, 0)
    else if !single && c == '\\' then
      match rest with
      | [] => none
      | e :: rest =>
        if isBreak e then some ([], .escapedBreak, 1)
        else
          match escapeMeaning? e with
          | none => none
          | some (.inl x) =>
            (quotedPart? single rest).map fun (text, stop, n) => (x :: text, stop, n + 2)
          | some (.inr digits) =>
            match Decimal.ofDigits? 16 (rest.take digits) with
            | none => none
            | some code =>
              if (rest.take digits).length = digits ∧ code.isValidChar then
                (quotedPart? single (rest.drop digits)).map fun (text, stop, n) =>
                  (Char.ofNat code :: text, stop, n + 2 + digits)
              else none
    else (quotedPart? single rest).map fun (text, stop, n) => (c :: text, stop, n + 1)
termination_by cs.length
decreasing_by all_goals simp_all <;> omega

/-- A part that a gap stops is followed by a blank or the end of a line. -/
theorem quotedPart?_gap {single : Bool} {cs part : List Char} {n : Nat}
    (h : quotedPart? single cs = some (part, .gap, n)) :
    ∃ x, (cs.drop n).head? = some x ∧ isSeparator x := by
  fun_induction quotedPart? single cs generalizing part n with
  | case2 c rest hc =>
    simp only [Option.some.injEq, Prod.mk.injEq, true_and] at h
    exact ⟨c, by simp [← h.2], hc⟩
  | case3 c _ _ rest ih =>
    obtain ⟨⟨a, stop, m⟩, hm, heq⟩ := Option.map_eq_some_iff.1 h
    simp only [Prod.mk.injEq] at heq
    obtain ⟨-, rfl, rfl⟩ := heq
    simpa only [List.drop_succ_cons] using ih hm
  | case9 c _ _ _ _ e rest _ _ _ ih =>
    obtain ⟨⟨a, stop, m⟩, hm, heq⟩ := Option.map_eq_some_iff.1 h
    simp only [Prod.mk.injEq] at heq
    obtain ⟨-, rfl, rfl⟩ := heq
    simpa only [List.drop_succ_cons] using ih hm
  | case11 c _ _ _ _ e rest _ digits _ _ _ _ ih =>
    obtain ⟨⟨a, stop, m⟩, hm, heq⟩ := Option.map_eq_some_iff.1 h
    simp only [Prod.mk.injEq] at heq
    obtain ⟨-, rfl, rfl⟩ := heq
    have hdrop : m + 2 + digits = (digits + m) + 2 := by omega
    rw [hdrop, List.drop_succ_cons, List.drop_succ_cons, ← List.drop_drop]
    exact ih hm
  | case13 c rest _ _ _ _ ih =>
    obtain ⟨⟨a, stop, m⟩, hm, heq⟩ := Option.map_eq_some_iff.1 h
    simp only [Prod.mk.injEq] at heq
    obtain ⟨-, rfl, rfl⟩ := heq
    simpa only [List.drop_succ_cons] using ih hm
  | _ => simp at h

/-- The quoted scalar whose opening quote has been read. `text` is what has been read of it. -/
def quoted? (single : Bool) (text : List Char) (c : Cursor) : Option (List Char × Cursor) :=
  if c.atDocumentMark then none
  else
    match hpart : quotedPart? single c.rest with
    | none => none
    | some (part, .close, n) => some (text ++ part, c.skip (n + 1))
    | some (part, .gap, n) =>
      match hgap : gap? none [] [] (c.skip n) with
      | none => none
      | some (blanks, breaks, next) =>
        have : next.rest.length < c.rest.length := by
          obtain ⟨x, hx, hseparator⟩ := quotedPart?_gap hpart
          exact Nat.lt_of_lt_of_le (gap?_length_lt hgap hx hseparator) (c.skip_length_le n)
        quoted? single (text ++ part ++ gapText blanks breaks) next
    | some (part, .escapedBreak, n) =>
      match hbreak : (c.skip n).lineBreak? with
      | none => none
      | some (_, afterBreak) =>
        match hgap : gap? none [] [] (afterBreak.skipWhile isSpace) with
        | none => none
        | some (_, breaks, next) =>
          have := Cursor.lineBreak?_length_lt hbreak
          have := c.skip_length_le n
          have := afterBreak.skipWhile_length_le isSpace
          have := gap?_length_le hgap
          quoted? single (text ++ part ++ breaks) next
termination_by c.rest.length

/-! ### Blocks -/

/-- How the line breaks at the end of a block are kept. -/
inductive Chomping
  | clip
  | strip
  | keep
deriving DecidableEq, Repr

/-- The empty lines and the indentation at the front of a block's next line: the greatest column
met, the breaks, and what follows. Without an `indent` all blanks are indentation. A tab there
is refused. -/
def blockBreaks? (indent : Option Nat) (widest : Nat) (breaks : List Char) (c : Cursor) :
    Option (Nat × List Char × Cursor) :=
  let blanks := (c.rest.takeWhile (· == ' ')).length
  let width := match indent with
    | none => blanks
    | some i => min blanks (i - c.column)
  let c' := c.skip width
  let widest := max widest c'.column
  if indent.all (c'.column < ·) && c'.at_ '\t' then none
  else
    match hbreak : c'.lineBreak? with
    | none => some (widest, breaks, c')
    | some (b, next) =>
      have := Cursor.lineBreak?_length_lt hbreak
      have : c'.rest.length ≤ c.rest.length := c.skip_length_le width
      blockBreaks? indent widest (breaks ++ [b]) next
termination_by c.rest.length
decreasing_by omega

/-- Nor does reading the breaks in a block. -/
theorem blockBreaks?_length_le {indent : Option Nat} {widest w : Nat} {breaks b : List Char}
    {c next : Cursor} (h : blockBreaks? indent widest breaks c = some (w, b, next)) :
    next.rest.length ≤ c.rest.length := by
  fun_induction blockBreaks? indent widest breaks c with
  | case1 => simp at h
  | case2 => grind [Cursor.skip_length_le]
  | case3 => grind

/-- The lines of a block. `text` is what has been read of it, `last` the break after that,
`breaks` the breaks of the empty lines since, and `afterBlank` tells whether the line before
started with a blank. Gives the text, the last break and the breaks of empty lines after it. -/
def blockLines? (folded : Bool) (indent : Nat) (text last breaks : List Char) (afterBlank : Bool)
    (c : Cursor) : Option (List Char × List Char × List Char × Cursor) :=
  if hline : c.column = indent ∧ c.rest ≠ [] then
    let startsBlank := c.peek?.any isSpace
    let joint :=
      if folded && last == ['\n'] && !afterBlank && !startsBlank then
        if breaks.isEmpty then [' '] else []
      else last
    let text := text ++ joint ++ breaks ++ c.rest.takeWhile (!isBreak ·)
    let last := ((c.skipWhile (!isBreak ·)).lineBreak?.map Prod.fst).toList
    match hbreaks : blockBreaks? (some indent) 0 [] c.pastLine with
    | none => none
    | some (_, breaks, next) =>
      have := Cursor.pastLine_length_lt hline.2
      have := blockBreaks?_length_le hbreaks
      blockLines? folded indent text last breaks startsBlank next
  else some (text, last, breaks, c)
termination_by c.rest.length

/-- The chomping mark and the indentation digit at the front, in either order. -/
def blockHeader? (c : Cursor) : Option (Chomping × Option Nat × Cursor) :=
  let mark? (c : Cursor) : Option (Chomping × Cursor) :=
    if c.at_ '+' then some (.keep, c.skip 1)
    else if c.at_ '-' then some (.strip, c.skip 1)
    else none
  let digit? (c : Cursor) : Option (Nat × Cursor) :=
    match c.peek? with
    | some x => if x.isDigit then some (Decimal.digitValue x, c.skip 1) else none
    | none => none
  let header : Chomping × Option Nat × Cursor :=
    match mark? c with
    | some (chomping, c) =>
      match digit? c with
      | some (n, c) => (chomping, some n, c)
      | none => (chomping, none, c)
    | none =>
      match digit? c with
      | some (n, c) =>
        match mark? c with
        | some (chomping, c) => (chomping, some n, c)
        | none => (.clip, some n, c)
      | none => (.clip, none, c)
  if header.2.1 = some 0 then none else some header

/-- The block scalar whose `|` or `>` has been read, inside a block indented by `parent` columns,
or `-1` outside of any. -/
def block? (folded : Bool) (parent : Int) (c : Cursor) : Option (List Char × Cursor) := do
  let (chomping, increment, c) ← blockHeader? c
  let c := c.skipWhile isSpace
  let c := if c.at_ '#' then c.skipWhile (!isBreak ·) else c
  let c ← match c.lineBreak? with
    | some (_, next) => some next
    | none => if c.rest = [] then some c else none
  let given : Option Nat := increment.map fun n => (max parent 0).toNat + n
  let (widest, breaks, c) ← blockBreaks? given 0 [] c
  let indent := given.getD (max widest (max (parent + 1).toNat 1))
  let (text, last, breaks, c) ← blockLines? folded indent [] [] breaks false c
  let tail := match chomping with
    | .strip => []
    | .clip => last
    | .keep => last ++ breaks
  return (text ++ tail, c)

end OpenApiZod.Yaml
