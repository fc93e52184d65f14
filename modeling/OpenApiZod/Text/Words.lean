import OpenApiZod.Text.Letter

/-!
# Words of a name

A name such as `user.createAll` or `HTTPError` is a sequence of words. Words are separated by
characters that are neither letters nor numbers, and within a run of letters by a change of
case: before a capital that follows a small letter, and before the last capital of a run of
capitals when a small letter follows it (`HTTPError` is `HTTP`, `Error`).
-/

namespace OpenApiZod.Text

/-- The case of the letters read so far in a word. -/
inductive Hump
  | start
  | lower
  | upper
deriving DecidableEq, Repr

/-- Cuts a run of letters and numbers at its changes of case. `word` holds the letters of the
current word, last one first, and `hump` the case of the latest cased letter among them. -/
def cutHumps (hump : Hump) (word : List Char) : List Char → List (List Char)
  | [] => []
  | [c] => [(c :: word).reverse]
  | c :: next :: rest =>
    let hump' := if isLower c then .lower else if isUpper c then .upper else hump
    if hump' = .lower ∧ isUpper next then
      (c :: word).reverse :: cutHumps .start [] (next :: rest)
    else if hump = .upper ∧ isUpper c ∧ isLower next then
      word.reverse :: cutHumps .start [c] (next :: rest)
    else
      cutHumps hump' (c :: word) (next :: rest)

/-- The runs of letters and numbers in a text. `run` holds the current one, last character
first. -/
def alphanumericParts (run : List Char) : List Char → List (List Char)
  | [] => if run.isEmpty then [] else [run.reverse]
  | c :: rest =>
    if isAlphanumeric c then alphanumericParts (c :: run) rest
    else if run.isEmpty then alphanumericParts [] rest
    else run.reverse :: alphanumericParts [] rest

/-- The words of a text. -/
def words (s : String) : List (List Char) :=
  (alphanumericParts [] s.toList).flatMap (cutHumps .start [])

/-- Words joined with a capital at the start of each. -/
def pascal (ws : List (List Char)) : String :=
  String.ofList (ws.flatMap capitalizeWord)

/-- Words joined with a capital at the start of each but the first. -/
def camel : List (List Char) → String
  | [] => ""
  | w :: ws => String.ofList (lowerWord w ++ ws.flatMap capitalizeWord)

/-- Words in small letters with blanks between them and a capital at the start of the first. -/
def sentence (ws : List (List Char)) : String :=
  match [' '].intercalate (ws.map lowerWord) with
  | [] => ""
  | c :: rest => String.ofList (upperForm c ++ rest)

end OpenApiZod.Text
