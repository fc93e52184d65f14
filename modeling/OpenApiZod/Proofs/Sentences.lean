import OpenApiZod.Proofs.Phrase
import OpenApiZod.Validator.Script

/-!
# Sentences

The grammar of the expressions that build validators, as a reading of phrases. A sentence is the
name of a binding or a function of the namespace `z`, with methods after it; what stands in the
parentheses is told by the name of the function or method (`functionForm?`, `methodForm?`).
`Phrase.marks?` reads what a sentence says about its shape, in order.

`Script.Says` connects an expression with what is read from it. There is one lemma for functions,
one for methods, and one for each form of arguments.
-/

namespace OpenApiZod

/-! ### What is read -/

/-- What a sentence says. Literals and bounds are kept as they are spelt; `null` and `any` stand for
literals as well, those that have no text of their own. -/
inductive Mark
  | property (name : String) (optional : Bool)
  | choice (value : String)
  | literal (text : String)
  | bound (rule text : String)
  | pattern (source : String)
  | reference (identifier : String)
  | null
  | any
deriving DecidableEq, Repr

/-- What stands in the parentheses of a function or a method. -/
inductive Form
  /-- Nothing. The name says all that there is to say. -/
  | empty (marks : List Mark)
  /-- One value. -/
  | literal
  /-- A list of texts. -/
  | choices
  /-- A list of sentences. -/
  | members
  /-- A number of sentences. -/
  | sentences (count : Nat)
  /-- A record of sentences. -/
  | fields
  /-- A function that gives a binding. -/
  | deferred
  /-- A number. -/
  | bound
  /-- A regular expression. -/
  | pattern

/-- The functions of the namespace. -/
def functionForm? : String → Option Form
  | "lazy" => some .deferred
  | "any" => some (.empty [.any])
  | "boolean" => some (.empty [])
  | "null" => some (.empty [.null])
  | "unknown" => some (.empty [])
  | "string" => some (.empty [])
  | "number" => some (.empty [])
  | "literal" => some .literal
  | "enum" => some .choices
  | "union" => some .members
  | "intersection" => some (.sentences 2)
  | "array" => some (.sentences 1)
  | "record" => some (.sentences 2)
  | "object" => some .fields
  | _ => none

/-- The methods of validators. -/
def methodForm? : String → Option Form
  | "optional" => some (.empty [])
  | "nullable" => some (.empty [])
  | "datetime" => some (.empty [])
  | "date" => some (.empty [])
  | "email" => some (.empty [])
  | "uuid" => some (.empty [])
  | "url" => some (.empty [])
  | "int" => some (.empty [])
  | "strict" => some (.empty [])
  | "passthrough" => some (.empty [])
  | "min" => some .bound
  | "max" => some .bound
  | "gt" => some .bound
  | "lt" => some .bound
  | "regex" => some .pattern
  | "catchall" => some (.sentences 1)
  | _ => none

/-- The form of a chain's first call, if it is a call of the namespace. -/
def startForm? (head name : String) : Option Form :=
  if head = "z" then functionForm? name else none

namespace Phrase

/-- The text of a value. -/
def literalText? : Phrase → Option String
  | .number spelling => some spelling
  | .quoted value => some (Text.quoted value)
  | .chain word [] => if word ∈ ["true", "false", "null"] then some word else none
  | _ => none

/-- The marks of texts to choose from. -/
def choices? : List Phrase → Option (List Mark)
  | [] => some []
  | .quoted value :: rest => (choices? rest).map (.choice value :: ·)
  | _ => none

/-- Whether the last call of a chain makes it optional. -/
def endsOptional : Phrase → Bool
  | .chain _ calls => (calls.getLast?.map (·.1)) == some "optional"
  | _ => false

/-- What two parts say, one after the other. -/
def both? (first second : Option (List Mark)) : Option (List Mark) :=
  first.bind fun marks => second.map (marks ++ ·)

mutual

/-- What a sentence says; `none` for a phrase that is none. -/
def marks? : Phrase → Option (List Mark)
  | .chain head [] => some [.reference head]
  | .chain head ((name, arguments) :: calls) =>
    match startForm? head name with
    | some form => both? (formMarks? name form arguments) (callMarks? calls)
    | none => both? (some [.reference head]) (callMarks? ((name, arguments) :: calls))
  | _ => none

/-- What arguments of a form say. -/
def formMarks? (name : String) : Form → List Phrase → Option (List Mark)
  | .empty marks, [] => some marks
  | .literal, [p] => (literalText? p).map ([.literal ·])
  | .choices, [.list items] => choices? items
  | .members, [.list items] => sentenceMarks? items
  | .sentences count, arguments =>
    if arguments.length = count then sentenceMarks? arguments else none
  | .fields, [.record fields] => fieldMarks? fields
  | .deferred, [.thunk identifier] => some [.reference identifier]
  | .bound, [.number spelling] => some [.bound name spelling]
  | .pattern, [.regExp source] => some [.pattern source]
  | _, _ => none

/-- What sentences say. -/
def sentenceMarks? : List Phrase → Option (List Mark)
  | [] => some []
  | p :: rest => both? (marks? p) (sentenceMarks? rest)

/-- What the fields of an object say. -/
def fieldMarks? : List (String × Phrase) → Option (List Mark)
  | [] => some []
  | (name, p) :: rest =>
    both? ((marks? p).map (.property name p.endsOptional :: ·)) (fieldMarks? rest)

/-- What methods say. -/
def callMarks? : List (String × List Phrase) → Option (List Mark)
  | [] => some []
  | (name, arguments) :: rest =>
    match methodForm? name with
    | some form => both? (formMarks? name form arguments) (callMarks? rest)
    | none => none

end

end Phrase

/-! ### Expressions as phrases -/

/-- The phrase of a value that a literal can have. -/
def Json.phrase? : Json → Option Phrase
  | .null => some (.chain "null" [])
  | .bool b => some (.chain (if b then "true" else "false") [])
  | .int n => some (.number (toString n))
  | .float x => some (if x.isFinite then .number (Decimal.jsonText x) else .chain "null" [])
  | .str s => some (.quoted s)
  | .arr _ => none
  | .obj _ => none

namespace Script

mutual

/-- The syntax tree of an expression, if the expression is of the kind that validators use: with
methods of words only, regular expressions as the only objects, and names as the only bodies of
functions. -/
def phrase? : Script → Option Phrase
  | .identifier name => some (.chain name [])
  | .json value => value.phrase?
  | .decimal value => some (.number (Decimal.plainText value))
  | .natural value => some (.number (toString value))
  | .call target method arguments =>
    match phrase? target, phraseAll? arguments with
    | some (.chain head calls), some ps => some (.chain head (calls ++ [(method, ps)]))
    | _, _ => none
  | .construct class_ arguments =>
    match phraseAll? arguments with
    | some [.quoted source] => if class_ = "RegExp" then some (.regExp source) else none
    | _ => none
  | .list items => (phraseAll? items).map .list
  | .record fields => (phraseFields? fields).map .record
  | .thunk body =>
    match phrase? body with
    | some (.chain name []) => some (.thunk name)
    | _ => none

/-- The syntax trees of expressions. -/
def phraseAll? : List Script → Option (List Phrase)
  | [] => some []
  | e :: rest => (phrase? e).bind fun p => (phraseAll? rest).map (p :: ·)

/-- The syntax trees of the fields of a record. -/
def phraseFields? : List (String × Script) → Option (List (String × Phrase))
  | [] => some []
  | (name, e) :: rest => (phrase? e).bind fun p => (phraseFields? rest).map ((name, p) :: ·)

end

/-- The phrase of a value is written as the value is. -/
theorem render_jsonPhrase? (value : Json) {p : Phrase} (h : value.phrase? = some p) :
    p.render = value.compact := by
  cases value with
  | null | bool b | int n | str s =>
      obtain rfl := Option.some.inj h
      simp only [Phrase.render, Phrase.renderCalls, String.append_empty, Json.compact]
  | float x =>
      obtain rfl := Option.some.inj h
      rw [Json.compact]
      cases x with
      | finite negative mantissa exponent =>
          rw [if_pos (show Binary64.isFinite _ = true from rfl), Phrase.render]
      | infinite negative | nan =>
          change (Phrase.chain "null" []).render = _
          rw [Phrase.render, Phrase.renderCalls, String.append_empty, Decimal.jsonText]
  | arr items | obj members => cases h

/-- Calls are written one after the other. -/
theorem renderCalls_append (calls calls' : List (String × List Phrase)) :
    Phrase.renderCalls (calls ++ calls') =
      Phrase.renderCalls calls ++ Phrase.renderCalls calls' := by
  induction calls with
  | nil => rw [List.nil_append, Phrase.renderCalls, String.empty_append]
  | cons call calls ih =>
      obtain ⟨method, arguments⟩ := call
      rw [List.cons_append, Phrase.renderCalls, Phrase.renderCalls, ih]
      simp only [String.append_assoc]

mutual

/-- An expression and its syntax tree have one text. -/
theorem render_of_phrase? (e : Script) {p : Phrase} (h : e.phrase? = some p) :
    p.render = e.render := by
  cases e with
  | identifier name =>
      obtain rfl := Option.some.inj h
      rw [Phrase.render, Phrase.renderCalls, render, String.append_empty]
  | json value => exact render_jsonPhrase? value h
  | decimal value =>
      obtain rfl := Option.some.inj h
      rw [Phrase.render, render]
  | natural value =>
      obtain rfl := Option.some.inj h
      rw [Phrase.render, render]
  | call target method arguments =>
      rw [phrase?] at h
      split at h
      · rename_i head calls ps htarget harguments
        obtain rfl := Option.some.inj h
        have hhead := render_of_phrase? target htarget
        have hall := renderAll_of_phraseAll? arguments harguments
        rw [Phrase.render] at hhead
        rw [Phrase.render, renderCalls_append, render, ← hhead, ← hall, Phrase.renderCalls,
          Phrase.renderCalls, String.append_empty]
        simp only [String.append_assoc]
      · exact nomatch h
  | construct class_ arguments =>
      rw [phrase?] at h
      split at h
      · rename_i source harguments
        have hall := renderAll_of_phraseAll? arguments harguments
        split at h
        · rename_i hclass
          obtain rfl := Option.some.inj h
          have hregExp : "new RegExp(" = "new " ++ "RegExp" ++ "(" := by decide
          rw [Phrase.renderAll, Phrase.renderAll, Phrase.render] at hall
          rw [Phrase.render, render, ← hall, hclass, Text.separated, hregExp]
        · exact nomatch h
      · exact nomatch h
  | list items =>
      obtain ⟨ps, hps, rfl⟩ := Option.map_eq_some_iff.mp h
      rw [Phrase.render, render, renderAll_of_phraseAll? items hps]
  | record fields =>
      obtain ⟨ps, hps, rfl⟩ := Option.map_eq_some_iff.mp h
      rw [Phrase.render, render, renderFields_of_phraseFields? fields hps]
  | thunk body =>
      rw [phrase?] at h
      split at h
      · rename_i name hbody
        obtain rfl := Option.some.inj h
        have hname := render_of_phrase? body hbody
        rw [Phrase.render, Phrase.renderCalls, String.append_empty] at hname
        rw [Phrase.render, render, hname]
      · exact nomatch h

/-- The phrases of expressions are written as the expressions are. -/
theorem renderAll_of_phraseAll? (es : List Script) {ps : List Phrase}
    (h : phraseAll? es = some ps) : Phrase.renderAll ps = renderAll es := by
  cases es with
  | nil =>
      obtain rfl := Option.some.inj h
      rw [Phrase.renderAll, renderAll]
  | cons e es =>
      obtain ⟨p, hp, h⟩ := Option.bind_eq_some_iff.mp h
      obtain ⟨ps, hps, rfl⟩ := Option.map_eq_some_iff.mp h
      rw [Phrase.renderAll, renderAll, render_of_phrase? e hp, renderAll_of_phraseAll? es hps]

/-- So are the phrases of fields. -/
theorem renderFields_of_phraseFields? (fields : List (String × Script))
    {ps : List (String × Phrase)} (h : phraseFields? fields = some ps) :
    Phrase.renderFields ps = renderFields fields := by
  cases fields with
  | nil =>
      obtain rfl := Option.some.inj h
      rw [Phrase.renderFields, renderFields]
  | cons field fields =>
      obtain ⟨name, e⟩ := field
      obtain ⟨p, hp, h⟩ := Option.bind_eq_some_iff.mp h
      obtain ⟨ps, hps, rfl⟩ := Option.map_eq_some_iff.mp h
      rw [Phrase.renderFields, renderFields, render_of_phrase? e hp,
        renderFields_of_phraseFields? fields hps]

end

end Script

/-! ### Forms -/

/-- The names of the functions are identifiers. -/
theorem isIdentifier_of_functionForm? {name : String} {form : Form}
    (h : functionForm? name = some form) : Identifier.isIdentifier name = true := by
  unfold functionForm? at h
  split at h <;> first | decide | cases h

/-- So are those of the methods. -/
theorem isIdentifier_of_methodForm? {name : String} {form : Form}
    (h : methodForm? name = some form) : Identifier.isIdentifier name = true := by
  unfold methodForm? at h
  split at h <;> first | decide | cases h

/-- No method is called like a function of the namespace, so not even a binding with the name `z`
makes a sentence ambiguous. -/
theorem functionForm?_of_methodForm? {name : String} {form : Form}
    (h : methodForm? name = some form) : functionForm? name = none := by
  unfold methodForm? at h
  split at h <;> first | rfl | cases h

/-- None of the functions is called like the method that makes a validator optional. -/
theorem ne_optional_of_functionForm? {name : String} {form : Form}
    (h : functionForm? name = some form) : name ≠ "optional" := by
  rintro rfl
  exact nomatch h

/-! ### Reading the parts of a sentence -/

namespace Phrase

/-- Two parts that say something say both. -/
theorem both?_some (marks marks' : List Mark) :
    both? (some marks) (some marks') = some (marks ++ marks') := rfl

/-- It does not matter how parts are put together. -/
theorem both?_assoc (a b c : Option (List Mark)) : both? (both? a b) c = both? a (both? b c) := by
  cases a with
  | none => rfl
  | some a =>
      cases b with
      | none => rfl
      | some b =>
          cases c with
          | none => rfl
          | some c => exact congrArg some (List.append_assoc a b c)

/-- A first part that says nothing adds nothing. -/
theorem both?_nil_left (a : Option (List Mark)) : both? (some []) a = a := by
  cases a <;> rfl

/-- Nor does a second one. -/
theorem both?_nil_right (a : Option (List Mark)) : both? a (some []) = a := by
  cases a with
  | none => rfl
  | some a => exact congrArg some (List.append_nil a)

/-- Calls say what the first ones say, and then what the others say. -/
theorem callMarks?_append (calls calls' : List (String × List Phrase)) :
    callMarks? (calls ++ calls') = both? (callMarks? calls) (callMarks? calls') := by
  induction calls with
  | nil => rw [List.nil_append, callMarks?.eq_1, both?_nil_left]
  | cons call calls ih =>
      obtain ⟨name, arguments⟩ := call
      rw [List.cons_append, callMarks?, callMarks?, ih]
      cases methodForm? name with
      | none => rfl
      | some form => exact (both?_assoc _ _ _).symm

/-- A single call says what its arguments say in its form. -/
theorem callMarks?_singleton {name : String} {form : Form} (hform : methodForm? name = some form)
    (arguments : List Phrase) :
    callMarks? [(name, arguments)] = formMarks? name form arguments := by
  rw [callMarks?, hform, callMarks?]
  exact both?_nil_right _

/-- A method at the end of a chain says something more. -/
theorem marks?_append {head : String} {calls : List (String × List Phrase)}
    {marks marks' : List Mark} (h : (chain head calls).marks? = some marks)
    {name : String} {form : Form} (hform : methodForm? name = some form) {arguments : List Phrase}
    (harguments : formMarks? name form arguments = some marks') :
    (chain head (calls ++ [(name, arguments)])).marks? = some (marks ++ marks') := by
  cases calls with
  | nil =>
      rw [marks?] at h
      obtain rfl := Option.some.inj h
      have hstart : startForm? head name = none := by
        rw [startForm?, functionForm?_of_methodForm? hform, ite_self]
      rw [List.nil_append, marks?, hstart]
      simp only [callMarks?_singleton hform, harguments, both?_some]
  | cons call calls =>
      obtain ⟨name', arguments'⟩ := call
      rw [marks?] at h
      rw [List.cons_append, marks?]
      have hcalls (calls' : List (String × List Phrase)) :
          callMarks? (calls' ++ [(name, arguments)]) = both? (callMarks? calls') (some marks') := by
        rw [callMarks?_append, callMarks?_singleton hform, harguments]
      cases hstart : startForm? head name' with
      | none =>
          rw [hstart] at h
          replace h : both? (some [.reference head]) (callMarks? ((name', arguments') :: calls)) =
            some marks := h
          have hboth := both?_assoc (some [.reference head])
            (callMarks? ((name', arguments') :: calls)) (some marks')
          rw [h, ← hcalls] at hboth
          exact hboth.symm
      | some form' =>
          rw [hstart] at h
          replace h : both? (formMarks? name' form' arguments') (callMarks? calls) = some marks := h
          have hboth := both?_assoc (formMarks? name' form' arguments') (callMarks? calls)
            (some marks')
          rw [h, ← hcalls] at hboth
          exact hboth.symm

/-- Every sentence is a chain of calls. -/
theorem exists_chain_of_marks? {p : Phrase} {marks : List Mark} (h : p.marks? = some marks) :
    ∃ head calls, p = .chain head calls := by
  cases p with
  | chain head calls => exact ⟨head, calls, rfl⟩
  | _ => simp only [marks?, reduceCtorEq] at h

/-- Calls stay well formed when a well-formed one follows. -/
theorem wellFormedCalls_append (calls : List (String × List Phrase)) {name : String}
    {arguments : List Phrase} (h : WellFormedCalls calls)
    (hname : Identifier.isIdentifier name = true) (harguments : WellFormedAll arguments) :
    WellFormedCalls (calls ++ [(name, arguments)]) := by
  induction calls with
  | nil => exact ⟨hname, harguments, trivial⟩
  | cons call calls ih => exact ⟨h.1, h.2.1, ih h.2.2⟩

end Phrase

/-! ### What expressions say -/

namespace Script

/-- The expression is a sentence with these marks; `optional` tells whether it ends in the method
that makes it optional. -/
def Says (e : Script) (marks : List Mark) (optional : Bool) : Prop :=
  ∃ p, e.phrase? = some p ∧ p.WellFormed ∧ p.marks? = some marks ∧ p.endsOptional = optional

/-- The expressions are arguments of a form and say this in it. -/
def Arguments (name : String) (form : Form) (es : List Script) (marks : List Mark) : Prop :=
  ∃ ps, phraseAll? es = some ps ∧ Phrase.WellFormedAll ps ∧
    Phrase.formMarks? name form ps = some marks

/-- The expressions are sentences with these marks, and none ends in the method that makes it
optional. -/
inductive SayAll : List Script → List Mark → Prop
  | nil : SayAll [] []
  | cons {e : Script} {es : List Script} {marks marks' : List Mark} (h : e.Says marks false)
      (hes : SayAll es marks') : SayAll (e :: es) (marks ++ marks')

/-- The values of the fields are sentences, and the fields have these marks. -/
inductive SayFields : List (String × Script) → List Mark → Prop
  | nil : SayFields [] []
  | cons (name : String) {e : Script} {fields : List (String × Script)} {marks marks' : List Mark}
      {optional : Bool} (h : e.Says marks optional) (hfields : SayFields fields marks') :
      SayFields ((name, e) :: fields) (.property name optional :: (marks ++ marks'))

/-- An identifier is a sentence that says its name. -/
theorem Says.identifier {name : String} (h : Identifier.isIdentifier name = true) :
    Says (.identifier name) [.reference name] false :=
  ⟨.chain name [], rfl, ⟨h, trivial⟩, by rw [Phrase.marks?], rfl⟩

/-- A function of the namespace says what its arguments say. -/
theorem Arguments.function {name : String} {form : Form} {es : List Script} {marks : List Mark}
    (h : Arguments name form es marks) (hform : functionForm? name = some form) :
    Says (Validator.zod name es) marks false := by
  obtain ⟨ps, hps, hwell, hmarks⟩ := h
  refine ⟨.chain "z" [(name, ps)], ?_, ?_, ?_, ?_⟩
  · rw [Validator.zod, phrase?, hps]
    rfl
  · exact ⟨by decide, isIdentifier_of_functionForm? hform, hwell, trivial⟩
  · have hstart : startForm? "z" name = some form := hform
    rw [Phrase.marks?, hstart, Phrase.callMarks?]
    exact (Phrase.both?_nil_right _).trans hmarks
  · exact beq_false_of_ne fun heq => ne_optional_of_functionForm? hform (Option.some.inj heq)

/-- A method says what its arguments say, after what was said before. -/
theorem Says.method {e : Script} {marks marks' : List Mark} {optional : Bool}
    (h : e.Says marks optional) {name : String} {form : Form} {es : List Script}
    (hes : Arguments name form es marks') (hform : methodForm? name = some form) :
    Says (Validator.chain name es e) (marks ++ marks') (name == "optional") := by
  obtain ⟨p, hp, hwell, hmarks, -⟩ := h
  obtain ⟨ps, hps, hwells, hmarks'⟩ := hes
  obtain ⟨head, calls, rfl⟩ := Phrase.exists_chain_of_marks? hmarks
  refine ⟨.chain head (calls ++ [(name, ps)]), ?_, ?_, ?_, ?_⟩
  · rw [Validator.chain, phrase?, hp, hps]
  · exact ⟨hwell.1, Phrase.wellFormedCalls_append calls hwell.2
      (isIdentifier_of_methodForm? hform) hwells⟩
  · exact Phrase.marks?_append hmarks hform hmarks'
  · rw [Phrase.endsOptional, List.getLast?_concat]
    rfl

/-! ### Arguments -/

/-- No arguments say what the name stands for. -/
theorem Arguments.empty (name : String) (marks : List Mark) :
    Arguments name (.empty marks) [] marks :=
  ⟨[], rfl, trivial, by rw [Phrase.formMarks?]⟩

/-- A deferred name is the argument of a function that defers. -/
theorem Arguments.deferred {name identifier : String}
    (h : Identifier.isIdentifier identifier = true) :
    Arguments name .deferred [.thunk (.identifier identifier)] [.reference identifier] :=
  ⟨[.thunk identifier], rfl, ⟨h, trivial⟩, by rw [Phrase.formMarks?]⟩

/-- A natural number is the argument of a bound. -/
theorem Arguments.natural (name : String) (n : Nat) :
    Arguments name .bound [.natural n] [.bound name (toString n)] :=
  ⟨[.number (toString n)], rfl, ⟨isNumeral_natural n, trivial⟩, by rw [Phrase.formMarks?]⟩

/-- So is a finite number. -/
theorem Arguments.decimal (name : String) {x : Binary64} (h : x.isFinite = true) :
    Arguments name .bound [.decimal x] [.bound name (Decimal.plainText x)] :=
  ⟨[.number (Decimal.plainText x)], rfl, ⟨isNumeral_plainText h, trivial⟩, by
    rw [Phrase.formMarks?]⟩

/-- A regular expression is the argument of a pattern. -/
theorem Arguments.pattern (name source : String) :
    Arguments name .pattern [.construct "RegExp" [.json (.str source)]] [.pattern source] :=
  ⟨[.regExp source], rfl, ⟨trivial, trivial⟩, by rw [Phrase.formMarks?]⟩

/-- The phrase of a value is well formed. -/
theorem wellFormed_jsonPhrase? {value : Json} {p : Phrase} (h : value.phrase? = some p) :
    p.WellFormed := by
  cases value with
  | null =>
      obtain rfl := Option.some.inj h
      exact ⟨by decide, trivial⟩
  | bool b =>
      obtain rfl := Option.some.inj h
      exact ⟨by cases b <;> decide, trivial⟩
  | int n =>
      obtain rfl := Option.some.inj h
      exact isNumeral_integer n
  | float x =>
      obtain rfl := Option.some.inj h
      split
      · rename_i hfinite
        exact isNumeral_jsonText hfinite
      · exact ⟨by decide, trivial⟩
  | str s =>
      obtain rfl := Option.some.inj h
      trivial
  | arr items => exact nomatch h
  | obj members => exact nomatch h

/-- A literal is read as it is spelt. -/
theorem literalText?_jsonPhrase? {value : Json} {p : Phrase} (h : value.phrase? = some p) :
    p.literalText? = some value.compact := by
  rw [← render_jsonPhrase? value h]
  cases value with
  | null =>
      obtain rfl := Option.some.inj h
      rw [Phrase.render, Phrase.renderCalls, String.append_empty]
      rfl
  | bool b =>
      obtain rfl := Option.some.inj h
      rw [Phrase.render, Phrase.renderCalls, String.append_empty]
      cases b <;> rfl
  | int n =>
      obtain rfl := Option.some.inj h
      rw [Phrase.render]
      rfl
  | float x =>
      obtain rfl := Option.some.inj h
      split
      · rw [Phrase.render]
        rfl
      · rw [Phrase.render, Phrase.renderCalls, String.append_empty]
        rfl
  | str s =>
      obtain rfl := Option.some.inj h
      rw [Phrase.render]
      rfl
  | arr items => exact nomatch h
  | obj members => exact nomatch h

/-- A value is the argument of a literal. -/
theorem Arguments.literal (name : String) {value : Json} {p : Phrase}
    (h : value.phrase? = some p) :
    Arguments name .literal [.json value] [.literal value.compact] := by
  have hall : phraseAll? [.json value] = some [p] := by
    rw [phraseAll?, phrase?, h]
    rfl
  refine ⟨[p], hall, ⟨wellFormed_jsonPhrase? h, trivial⟩, ?_⟩
  rw [Phrase.formMarks?, literalText?_jsonPhrase? h]
  rfl

/-- A list of texts is the argument of a choice. -/
theorem Arguments.choices (name : String) (texts : List String) :
    Arguments name .choices [.list (texts.map fun s => .json (.str s))] (texts.map .choice) := by
  have hall (texts : List String) :
      phraseAll? (texts.map fun s => .json (.str s)) = some (texts.map .quoted) ∧
        Phrase.WellFormedAll (texts.map .quoted) ∧
        Phrase.choices? (texts.map .quoted) = some (texts.map .choice) := by
    induction texts with
    | nil => exact ⟨rfl, trivial, rfl⟩
    | cons s texts ih =>
        obtain ⟨hphrases, hwell, hchoices⟩ := ih
        simp only [List.map_cons]
        refine ⟨?_, ⟨trivial, hwell⟩, ?_⟩
        · rw [phraseAll?, hphrases]
          rfl
        · rw [Phrase.choices?, hchoices, Option.map_some]
  obtain ⟨hphrases, hwell, hchoices⟩ := hall texts
  refine ⟨[.list (texts.map .quoted)], ?_, ⟨hwell, trivial⟩, by rw [Phrase.formMarks?, hchoices]⟩
  rw [phraseAll?, phrase?, hphrases]
  rfl

/-- Sentences have phrases that are well formed and say the same. -/
theorem SayAll.exists_phrases {es : List Script} {marks : List Mark} (h : SayAll es marks) :
    ∃ ps, phraseAll? es = some ps ∧ Phrase.WellFormedAll ps ∧
      Phrase.sentenceMarks? ps = some marks ∧ ps.length = es.length := by
  induction h with
  | nil => exact ⟨[], rfl, trivial, by rw [Phrase.sentenceMarks?], rfl⟩
  | cons h hes ih =>
      obtain ⟨p, hp, hwell, hmarks, -⟩ := h
      obtain ⟨ps, hps, hwells, hmarks', hlength⟩ := ih
      refine ⟨p :: ps, ?_, ⟨hwell, hwells⟩, ?_, congrArg (· + 1) hlength⟩
      · rw [phraseAll?, hp, hps]
        rfl
      · rw [Phrase.sentenceMarks?, hmarks, hmarks', Phrase.both?_some]

/-- So have the fields of a record. -/
theorem SayFields.exists_phrases {fields : List (String × Script)} {marks : List Mark}
    (h : SayFields fields marks) :
    ∃ ps, phraseFields? fields = some ps ∧ Phrase.WellFormedFields ps ∧
      Phrase.fieldMarks? ps = some marks ∧ ps.length = fields.length := by
  induction h with
  | nil => exact ⟨[], rfl, trivial, by rw [Phrase.fieldMarks?], rfl⟩
  | cons name h hfields ih =>
      obtain ⟨p, hp, hwell, hmarks, hoptional⟩ := h
      obtain ⟨ps, hps, hwells, hmarks', hlength⟩ := ih
      refine ⟨(name, p) :: ps, ?_, ⟨hwell, hwells⟩, ?_, congrArg (· + 1) hlength⟩
      · rw [phraseFields?, hp, hps]
        rfl
      · rw [Phrase.fieldMarks?, hmarks, hmarks', hoptional]
        rfl

/-- A list of sentences is the argument of a function that takes members. -/
theorem SayAll.members {es : List Script} {marks : List Mark} (h : SayAll es marks)
    (name : String) : Arguments name .members [.list es] marks := by
  obtain ⟨ps, hps, hwell, hmarks, -⟩ := h.exists_phrases
  refine ⟨[.list ps], ?_, ⟨hwell, trivial⟩, by rw [Phrase.formMarks?, hmarks]⟩
  rw [phraseAll?, phrase?, hps]
  rfl

/-- Sentences are the arguments of a function that takes as many of them. -/
theorem SayAll.sentences {es : List Script} {marks : List Mark} (h : SayAll es marks)
    (name : String) : Arguments name (.sentences es.length) es marks := by
  obtain ⟨ps, hps, hwell, hmarks, hlength⟩ := h.exists_phrases
  refine ⟨ps, hps, hwell, ?_⟩
  rw [Phrase.formMarks?, if_pos hlength, hmarks]

/-- A record of sentences is the argument of a function that takes fields. -/
theorem SayFields.fields {fields : List (String × Script)} {marks : List Mark}
    (h : SayFields fields marks) (hne : fields ≠ []) (name : String) :
    Arguments name .fields [.record fields] marks := by
  obtain ⟨ps, hps, hwell, hmarks, hlength⟩ := h.exists_phrases
  have hne' : ps ≠ [] := by
    rintro rfl
    exact hne (List.length_eq_zero_iff.mp hlength.symm)
  refine ⟨[.record ps], ?_, ⟨⟨hne', hwell⟩, trivial⟩, by rw [Phrase.formMarks?, hmarks]⟩
  rw [phraseAll?, phrase?, hps]
  rfl

/-- A sentence is the argument of a function that takes one. -/
theorem Says.one {e : Script} {marks : List Mark} (h : e.Says marks false) (name : String) :
    Arguments name (.sentences 1) [e] marks := by
  have hall := (SayAll.cons h .nil).sentences name
  rwa [List.append_nil] at hall

/-- Two sentences are the arguments of a function that takes two. -/
theorem Says.two {e e' : Script} {marks marks' : List Mark} (h : e.Says marks false)
    (h' : e'.Says marks' false) (name : String) :
    Arguments name (.sentences 2) [e, e'] (marks ++ marks') := by
  have hall := (SayAll.cons h (.cons h' .nil)).sentences name
  rwa [List.append_nil] at hall

end Script

end OpenApiZod
