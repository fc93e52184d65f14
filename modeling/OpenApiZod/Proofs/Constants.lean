import OpenApiZod.Conversion
import OpenApiZod.Format
import OpenApiZod.Proofs.KeywordFields
import OpenApiZod.Proofs.SchemaTrees

/-!
# Constants

A schema that says nothing of its shape may list the one value that it allows, or give that value as
a constant. The two are read by different ways: `enum` is a list that is empty by default, `const` a
value that may be absent. They meet in one shape, the literal of the value
(`Shape.ofSchema_withEnum`, `Shape.ofSchema_withConst`), and its validator accepts that value and no
other one (`Validator.accepts_ofLiteral_iff`).

But `null` stands for the absence of a constant. So the two spellings agree for all scalars other
than `null` (`Schema.const_eq_enum_iff`), and with the constant `null` a schema still says nothing
of its shape.
-/

namespace OpenApiZod

/-! ### Schemas that say nothing of their shape -/

/-- The keywords that say of what shape a value is. -/
def Keywords.shaping : List String :=
  ["type", "properties", "additionalProperties", "items", "allOf", "oneOf", "anyOf", "enum",
    "const"]

/-- Entries of a schema without a reference and without keywords that say of what shape a value
is. -/
def Datum.LeavesShapeOpen (entries : List (Datum × Datum)) : Prop :=
  ∀ e ∈ entries, e.1 ≠ .text "$ref" ∧
    ∀ name ∈ Keywords.shaping, fieldName? Reading.keywordNames e.1 ≠ some (some name)

/-- Keywords that say nothing of the shape. -/
structure Keywords.IsOpen {σ : Type} (k : Keywords σ) : Prop where
  type : k.type = none
  properties : k.properties = []
  additional : k.additional = none
  items : k.items = none
  allOf : k.allOf = []
  oneOf : k.oneOf = []
  anyOf : k.anyOf = []
  enum : k.enum = []
  const : k.const = none

namespace Datum

/-- A key stands for `$ref` if it is this text, or the number of the first field. -/
theorem fieldName?_ne_reference {key : Datum} (htext : key ≠ .text "$ref")
    (hfirst : fieldName? Reading.keywordNames key ≠ some (some "type")) :
    fieldName? ["$ref"] key ≠ some (some "$ref") := by
  intro h
  match key with
  | .text name =>
      obtain rfl : name = "$ref" := Option.some.inj (Option.some.inj h)
      exact htext rfl
  | .int (.ofNat 0) => exact hfirst rfl
  | .int (.ofNat (n + 1)) => exact nomatch Option.some.inj h

/-- A record without `$ref` is no reference. -/
theorem referenceTarget?_eq_none {entries : List (Datum × Datum)}
    (h : ∀ e ∈ entries, fieldName? ["$ref"] e.1 ≠ some (some "$ref")) :
    referenceTarget? (.record entries) = none := by
  have hfields : fieldsOfEntries? ["$ref"] entries = none ∨
      fieldsOfEntries? ["$ref"] entries = some [] := by
    rw [fieldsOfEntries?_eq]
    cases hnamed : entries.mapM (fun e => (fieldName? ["$ref"] e.1).map (·, e.2)) with
    | none => exact Or.inl rfl
    | some named =>
        have hfound : (named.filterMap fun e => e.1.map (·, e.2)).filter (·.1 ∈ ["$ref"]) = [] := by
          rw [List.filter_eq_nil_iff]
          intro e he hname
          obtain heq : e.1 = "$ref" := by simpa using hname
          exact not_mem_names hnamed h (heq ▸ List.mem_map_of_mem he)
        exact Or.inr (by rw [Option.bind_some, Fields.ofEntries?, hfound]; rfl)
  rcases hfields with hnone | hempty
  · simp only [referenceTarget?, hnone]
  · simp only [referenceTarget?, hempty]

end Datum

/-- The keywords with a constant or without one. -/
def Keywords.withConst {σ : Type} (k : Keywords σ) (value : Option Json) : Keywords σ :=
  { k with const := value }

/-- The keywords with a list of values. -/
def Keywords.withEnum {σ : Type} (k : Keywords σ) (values : List Json) : Keywords σ :=
  { k with enum := values }

/-- The constant that a value is read as: `null` stands for none. -/
def Datum.constant? (d : Datum) : Option Json := if d.isNull then none else d.json?

namespace Reading

variable {fields fields' : Fields Reading} {d : Datum} {j : Json}

/-- Keywords without those that say of what shape a value is say nothing of the shape. -/
theorem Gives.isOpen {k : Keywords Schema} (h : Gives fields k)
    (habsent : ∀ name ∈ Keywords.shaping, fields.lookup name = none) : k.IsOpen := by
  have hread {α : Type} {name : String} {default value : α} {read : Reading → Option α}
      (hvalue : Fields.read? fields name default read = some value)
      (hname : name ∈ Keywords.shaping) : value = default := by
    rw [Fields.read?, habsent name hname] at hvalue
    exact (Option.some.inj hvalue).symm
  have hoptional {α : Type} {name : String} {value : Option α} {read : Reading → Option α}
      (hvalue : Fields.readOptional? fields name read = some value)
      (hname : name ∈ Keywords.shaping) : value = none := by
    rw [Fields.readOptional?, habsent name hname] at hvalue
    exact (Option.some.inj hvalue).symm
  exact
    { type := hoptional h.type (by decide)
      properties := hread h.properties (by decide)
      additional := hoptional h.additional (by decide)
      items := hoptional h.items (by decide)
      allOf := hread h.allOf (by decide)
      oneOf := hread h.oneOf (by decide)
      anyOf := hread h.anyOf (by decide)
      enum := hread h.enum (by decide)
      const := hoptional h.const (by decide) }

section

variable {name : String} {r : Reading} (h : Fields.Adds name r fields fields')
include h

/-- A field that is added does not change what others are read as. -/
theorem read?_of_adds {α : Type} {other : String} (default : α) (read : Reading → Option α)
    (hother : other ≠ name) :
    Fields.read? fields' other default read = Fields.read? fields other default read := by
  rw [Fields.read?, Fields.read?, h.others other hother]

/-- Nor what others are that may be absent. -/
theorem readOptional?_of_adds {α : Type} {other : String} (read : Reading → Option α)
    (hother : other ≠ name) :
    Fields.readOptional? fields' other read = Fields.readOptional? fields other read := by
  rw [Fields.readOptional?, Fields.readOptional?, h.others other hother]

end

/-- Fields that give what others give but for one keyword are read as the same keywords with that
one changed. -/
theorem keywords?_eq_map {α : Type} (get : Keywords Schema → α)
    (set : Keywords Schema → α → Keywords Schema) (before : α) {after : α}
    (hself : ∀ k, set k (get k) = k) (hset : ∀ k x y, set (set k x) y = set k y)
    (hget : ∀ k x, get (set k x) = x) (hbefore : ∀ k, Gives fields k → get k = before)
    (hgives : ∀ k, Gives fields' k ↔ Gives fields (set k before) ∧ after = get k) :
    keywords? fields' = (keywords? fields).map (set · after) := by
  refine Option.ext fun k => ?_
  rw [keywords?_eq_some_iff, hgives, Option.map_eq_some_iff]
  constructor
  · rintro ⟨hk, rfl⟩
    exact ⟨set k before, keywords?_eq_some_iff.mpr hk, (hset k before (get k)).trans (hself k)⟩
  · rintro ⟨k, hk, rfl⟩
    rw [keywords?_eq_some_iff] at hk
    refine ⟨?_, (hget k after).symm⟩
    rwa [hset, ← hbefore k hk, hself]

/-- To add `const` to a schema is to add the constant to its keywords. -/
theorem keywords?_adds_const (h : Fields.Adds "const" (ofDatum d) fields fields')
    (hd : d.json? = some j) :
    keywords? fields' = (keywords? fields).map (·.withConst d.constant?) := by
  have hbefore : Fields.readOptional? fields "const" (fun r : Reading => r.datum.json?) =
      some none := by
    rw [Fields.readOptional?, h.absent]
  have hafter : Fields.readOptional? fields' "const" (fun r : Reading => r.datum.json?) =
      some d.constant? := by
    simp only [Fields.readOptional?, h.added, Optional.present?, datum_ofDatum, Datum.constant?]
    cases d.isNull with
    | true => rfl
    | false => simp [hd]
  refine keywords?_eq_map Keywords.const Keywords.withConst none (fun _ => rfl) (fun _ _ _ => rfl)
    (fun _ _ => rfl) (fun k hk => Option.some.inj (hk.const.symm.trans hbefore)) fun k => ?_
  simp only [gives_iff, read?_of_adds h, readOptional?_of_adds h, hbefore, hafter, ne_eq,
    String.reduceEq, not_false_eq_true, Keywords.withConst, Option.some.injEq]
  tauto

/-- To add `enum` with one value is to add the list of that value. -/
theorem keywords?_adds_enum (h : Fields.Adds "enum" (ofDatum (.list [d])) fields fields')
    (hd : d.json? = some j) :
    keywords? fields' = (keywords? fields).map (·.withEnum [j]) := by
  have hbefore : Fields.read? fields "enum" [] (fun r : Reading => jsons? r.datum) =
      some [] := by
    rw [Fields.read?, h.absent]
  have hafter : Fields.read? fields' "enum" [] (fun r : Reading => jsons? r.datum) =
      some [j] := by
    have hitems : [d].mapM Datum.json? = some [j] := by
      rw [List.mapM_cons, hd]
      rfl
    rw [Fields.read?, h.added]
    exact hitems
  refine keywords?_eq_map Keywords.enum Keywords.withEnum [] (fun _ => rfl) (fun _ _ _ => rfl)
    (fun _ _ => rfl) (fun k hk => Option.some.inj (hk.enum.symm.trans hbefore)) fun k => ?_
  simp only [gives_iff, read?_of_adds h, readOptional?_of_adds h, hbefore, hafter, ne_eq,
    String.reduceEq, not_false_eq_true, Keywords.withEnum, Option.some.injEq]
  tauto

end Reading

section Records

variable {before after : List (Datum × Datum)} (hopen : Datum.LeavesShapeOpen (before ++ after))
include hopen

/-- Entries that leave the shape open are read as keywords that do. -/
theorem Keywords.isOpen_of_ofDatum? {k : Keywords Schema}
    (h : Keywords.ofDatum? (.record (before ++ after)) = some k) : k.IsOpen := by
  obtain ⟨fields, hfields, hk⟩ := Option.bind_eq_some_iff.mp h
  refine (Reading.keywords?_eq_some_iff.mp hk).isOpen fun name hname => ?_
  have hknown : name ∈ Reading.keywordNames :=
    (show ∀ name ∈ Keywords.shaping, name ∈ Reading.keywordNames by decide) name hname
  have hadds := Datum.fieldsOfEntries?_insert .null hknown
    fun e he => (hopen e he).2 name hname
  obtain ⟨_, _, hsome, -, hadds⟩ | ⟨hnone, -⟩ := eq_of_rel hadds
  · obtain rfl := Option.some.inj (hfields.symm.trans hsome)
    rw [Fields.lookup_map, hadds.absent, Option.map_none]
  · exact nomatch hfields.symm.trans hnone

/-- A keyword that says of what shape a value is changes the keywords of a record without one as it
changes those of its fields. -/
theorem Keywords.ofDatum?_insert {name : String} (hname : name ∈ Keywords.shaping) {part : Datum}
    {f : Keywords Schema → Keywords Schema}
    (hf : ∀ fields fields', Fields.Adds name (Reading.ofDatum part) fields fields' →
      Reading.keywords? fields' = (Reading.keywords? fields).map f) :
    Keywords.ofDatum? (.record (before ++ (.text name, part) :: after)) =
      (Keywords.ofDatum? (.record (before ++ after))).map f := by
  have hknown : name ∈ Reading.keywordNames :=
    (show ∀ name ∈ Keywords.shaping, name ∈ Reading.keywordNames by decide) name hname
  have hadds := Datum.fieldsOfEntries?_insert part hknown
    fun e he => (hopen e he).2 name hname
  rw [Keywords.ofDatum?, Keywords.ofDatum?, Datum.fields?, Datum.fields?, Option.map_bind]
  exact (bind_eq_of_rel hadds fun fields fields' h => (hf _ _ (h.map Reading.ofDatum)).symm).symm

/-- A record without `$ref` is what its keywords say, with one of these keywords too. -/
theorem Schema.ofDatum?_open :
    Schema.ofDatum? (.record (before ++ after)) =
        (Keywords.ofDatum? (.record (before ++ after))).map .inline ∧
      ∀ name ∈ Keywords.shaping, ∀ part,
        Schema.ofDatum? (.record (before ++ (.text name, part) :: after)) =
          (Keywords.ofDatum? (.record (before ++ (.text name, part) :: after))).map .inline := by
  have hplain : ∀ e ∈ before ++ after, Datum.fieldName? ["$ref"] e.1 ≠ some (some "$ref") :=
    fun e he => Datum.fieldName?_ne_reference (hopen e he).1 ((hopen e he).2 "type" (by decide))
  refine ⟨by rw [Schema.ofDatum?_eq, Datum.referenceTarget?_eq_none hplain],
    fun name hname part => ?_⟩
  have hne : name ≠ "$ref" := fun heq => absurd (heq ▸ hname) (by decide)
  rw [Schema.ofDatum?_eq, Datum.referenceTarget?_eq_none]
  rw [List.forall_mem_append] at hplain ⊢
  refine ⟨hplain.1, List.forall_mem_cons.mpr ⟨?_, hplain.2⟩⟩
  simpa [Datum.fieldName?] using hne

end Records

/-! ### Shapes -/

namespace Shape

/-- The shape, with a nullable around it if the flag is set. -/
def orNull (nullable : Option Bool) (s : Shape) : Shape :=
  if nullable = some true then .nullable s else s

variable {k : Keywords Schema} (h : k.IsOpen)
include h

/-- Where nothing else says of what shape a value is, the constant decides, and without one the
shape is unknown. -/
theorem ofSchema_withConst : ∀ value : Option Json,
    ofSchema (.inline (k.withConst value)) =
      match value with
      | some j => orNull k.nullable (.literal [j])
      | none => .unknown
  | some j => by
      simp [ofSchema_inline, ofKeywords, base, Keywords.map, Keywords.withConst, orNull, h.allOf,
        h.oneOf, h.anyOf]
  | none => by
      simp [ofSchema_inline, ofKeywords, base, inferred, Keywords.map, Keywords.withConst, h.type,
        h.properties, h.additional, h.items, h.allOf, h.oneOf, h.anyOf, h.enum]

/-- A list of one value gives the literal of that value. -/
theorem ofSchema_withEnum (j : Json) :
    ofSchema (.inline (k.withEnum [j])) = orNull k.nullable (.literal [j]) := by
  simp [ofSchema_inline, ofKeywords, base, inferred, Keywords.map, Keywords.withEnum, orNull,
    h.type, h.properties, h.additional, h.items, h.allOf, h.oneOf, h.anyOf, h.const]

end Shape

/-! ### What validators of constants accept -/

/-- A value that is neither a list nor a record. -/
def Datum.IsScalar : Datum → Prop
  | .list _ | .record _ => False
  | _ => True

/-- Whether a number is zero, of either sign. -/
def Binary64.isZero : Binary64 → Bool
  | .finite _ 0 _ => true
  | _ => false

namespace Json

/-- The double-precision number that a number is where programs compare it. -/
def number? : Json → Option Binary64
  | .int n => some (.ofInt n)
  | .float x => some x
  | _ => none

/-- Scalars that are the same where programs compare them: numbers are, if they are the same
double-precision number or both are zero. -/
def Same (v w : Json) : Prop :=
  v = w ∨ ∃ x y, v.number? = some x ∧ w.number? = some y ∧ (x = y ∨ x.isZero ∧ y.isZero)

end Json

namespace Validator

/-- Whether a validator of constants accepts a value. What other validators accept is left open. -/
def Accepts (other : Validator → Json → Prop) : Validator → Json → Prop
  | .any, _ => True
  | .null, w => w = .null
  | .literal v, w => v.Same w
  | .nullable inner, w => w = .null ∨ inner.Accepts other w
  | v, w => other v w

/-- The validator of a scalar accepts that value. -/
theorem accepts_ofLiteral_iff (other : Validator → Json → Prop) {v : Datum} {j : Json}
    (hscalar : v.IsScalar) (hj : v.json? = some j) (w : Json) :
    (ofLiteral j).Accepts other w ↔ j.Same w := by
  have hnull : w = .null ↔ Json.Same .null w := by
    constructor
    · rintro rfl
      exact Or.inl rfl
    · rintro (rfl | ⟨_, _, hnumber, -⟩)
      · rfl
      · exact nomatch hnumber
  cases v with
  | list | record => exact hscalar.elim
  | null =>
      obtain rfl := Option.some.inj hj
      exact hnull
  | float x =>
      obtain rfl := Option.some.inj hj
      cases x.isFinite with
      | true => exact Iff.rfl
      | false => exact hnull
  | bool | int | text =>
      obtain rfl := Option.some.inj hj
      exact Iff.rfl

end Validator

/-- The shape of a constant is converted to the validator of its value. -/
theorem Scope.convert_literal (scope : Scope) (path : List String) (owner : String) (inline : Bool)
    (nullable : Option Bool) (j : Json) :
    scope.convert path owner inline (Shape.orNull nullable (.literal [j])) =
      if nullable = some true then .nullable (.ofLiteral j) else .ofLiteral j := by
  rw [convert, Shape.orNull]
  by_cases h : nullable = some true
  · rw [if_pos h, if_pos h]
    rfl
  · rw [if_neg h, if_neg h]
    rfl

/-- An unknown shape accepts anything. -/
theorem Scope.convert_unknown (scope : Scope) (path : List String) (owner : String)
    (inline : Bool) : scope.convert path owner inline .unknown = .any := by
  rw [convert]
  rfl

/-- The typed value of a text. -/
def Format.datum? : Format → String → Option Datum
  | .json, text => (Json.Tree.read? text).bind (·.datum?)
  | .yaml, text => (Yaml.Part.read? text).bind (·.datum?)

/-- A schema is read from the typed value of its text. -/
theorem Schema.ofText?_eq (format : Format) (text : String) :
    Schema.ofText? format text = (format.datum? text).bind Schema.ofDatum? := by
  cases format <;> rfl

/-- **Constants.** To a text in either format that is a schema without a reference and without
keywords that say of what shape a value is, a constant or a list of one value is added anywhere. If
the text is no schema, the others are none. Otherwise the list gives the literal of the value, and
its validator accepts that value, and `null` where the schema is nullable, and no other one. The
constant gives the same shape if and only if the value is not `null`; with the constant `null`
everything is accepted. -/
theorem Schema.const_eq_enum_iff (format : Format) (text constant listed : String)
    (before after : List (Datum × Datum)) (v : Datum) (j : Json)
    (htext : format.datum? text = some (.record (before ++ after)))
    (hconstant : format.datum? constant = some (.record (before ++ (.text "const", v) :: after)))
    (hlisted : format.datum? listed = some (.record (before ++ (.text "enum", .list [v]) :: after)))
    (hopen : Datum.LeavesShapeOpen (before ++ after)) (hscalar : v.IsScalar)
    (hj : v.json? = some j) :
    (Schema.ofText? format text = none ∧ Schema.ofText? format constant = none ∧
      Schema.ofText? format listed = none) ∨
    ∃ k withConst withEnum, Schema.ofText? format text = some (.inline k) ∧
      Schema.ofText? format constant = some withConst ∧
      Schema.ofText? format listed = some withEnum ∧
      Shape.ofSchema withEnum = Shape.orNull k.nullable (.literal [j]) ∧
      (Shape.ofSchema withConst = Shape.ofSchema withEnum ↔ v ≠ .null) ∧
      ∀ (scope : Scope) path owner inline,
        (∀ other w, (scope.convert path owner inline (Shape.ofSchema withEnum)).Accepts other w ↔
          j.Same w ∨ k.nullable = some true ∧ w = .null) ∧
        (v = .null → scope.convert path owner inline (Shape.ofSchema withConst) = .any) := by
  have hplain := Schema.ofDatum?_open hopen
  have hconst : "const" ∈ Keywords.shaping := by decide
  have henum : "enum" ∈ Keywords.shaping := by decide
  rw [Schema.ofText?_eq, Schema.ofText?_eq, Schema.ofText?_eq, htext, hconstant, hlisted,
    Option.bind_some, Option.bind_some, Option.bind_some, hplain.1, hplain.2 "const" hconst,
    hplain.2 "enum" henum,
    Keywords.ofDatum?_insert hopen hconst fun _ _ h => Reading.keywords?_adds_const h hj,
    Keywords.ofDatum?_insert hopen henum fun _ _ h => Reading.keywords?_adds_enum h hj]
  cases hk : Keywords.ofDatum? (.record (before ++ after)) with
  | none => exact Or.inl ⟨rfl, rfl, rfl⟩
  | some k =>
      have hkopen := Keywords.isOpen_of_ofDatum? hopen hk
      have hlisted := Shape.ofSchema_withEnum hkopen j
      have hconstant := Shape.ofSchema_withConst hkopen v.constant?
      refine Or.inr ⟨k, _, _, rfl, rfl, rfl, hlisted, ?_, fun scope path owner inline =>
        ⟨fun other w => ?_, ?_⟩⟩
      · rw [hlisted, hconstant]
        cases v with
        | null =>
            refine iff_of_false (fun heq => ?_) (absurd rfl)
            replace heq : Shape.unknown = Shape.orNull k.nullable (.literal [j]) := heq
            rw [Shape.orNull] at heq
            split at heq <;> exact nomatch heq
        | list | record => exact hscalar.elim
        | _ =>
            rw [Datum.constant?, if_neg (by exact nofun), hj]
            exact iff_of_true rfl nofun
      · rw [hlisted, Scope.convert_literal]
        have hliteral := Validator.accepts_ofLiteral_iff other hscalar hj w
        by_cases hnullable : k.nullable = some true
        · rw [if_pos hnullable, Validator.Accepts, hliteral, or_comm]
          simp [hnullable]
        · rw [if_neg hnullable, hliteral]
          simp [hnullable]
      · rintro rfl
        rw [hconstant]
        exact Scope.convert_unknown scope path owner inline

/-- A nullable schema and the number 5. -/
theorem Schema.const_eq_enum_iff_five :
    let text := "\x7b\"nullable\":true\x7d"
    let constant := "\x7b\"nullable\":true,\"const\":5\x7d"
    let listed := "\x7b\"nullable\":true,\"enum\":[5]\x7d"
    let nullable : Datum × Datum := (.text "nullable", .bool true)
    Format.datum? .json text = some (.record [nullable]) ∧
      Format.datum? .json constant = some (.record [nullable, (.text "const", .int 5)]) ∧
      Format.datum? .json listed = some (.record [nullable, (.text "enum", .list [.int 5])]) ∧
      Datum.LeavesShapeOpen [nullable] ∧ Datum.IsScalar (.int 5) ∧
      Datum.json? (.int 5) = some (.int 5) ∧
      ∃ withConst withEnum, Schema.ofText? .json constant = some withConst ∧
        Schema.ofText? .json listed = some withEnum ∧
        Shape.ofSchema withConst = Shape.ofSchema withEnum := by
  intro text constant listed nullable
  have htrue (rest : List Char) : Json.afterWord? "rue" ('r' :: 'u' :: 'e' :: rest) = some rest :=
    rfl
  have hfive {c : Char} (hc : c = '\x7d' ∨ c = ']') (rest : List Char) :
      Json.readNumber? ('5' :: c :: rest) = some (.integer false 5, c :: rest) := by
    rcases hc with rfl | rfl <;> rfl
  have htext : Format.datum? .json text = some (.record [nullable]) := by
    have hread : Json.Tree.read? text = some (.object [(some "nullable", .bool true)]) := by
      simp only [text]
      cbv
    rw [Format.datum?, hread]
    rfl
  have hconstant : Format.datum? .json constant =
      some (.record [nullable, (.text "const", .int 5)]) := by
    have hread : Json.Tree.read? constant = some (.object [(some "nullable", .bool true),
        (some "const", .number (.integer false 5))]) := by
      simp [constant, Json.Tree.read?, Json.Tree.depthLimit, Json.readValue?, Json.readMembers?,
        Json.readString?, Json.readPieces?, Json.textOf?, Json.skipSpace, htrue, hfive]
    rw [Format.datum?, hread]
    rfl
  have hlisted : Format.datum? .json listed =
      some (.record [nullable, (.text "enum", .list [.int 5])]) := by
    have hread : Json.Tree.read? listed = some (.object [(some "nullable", .bool true),
        (some "enum", .array [.number (.integer false 5)])]) := by
      simp [listed, Json.Tree.read?, Json.Tree.depthLimit, Json.readValue?, Json.readMembers?,
        Json.readItems?, Json.readString?, Json.readPieces?, Json.textOf?, Json.skipSpace, htrue,
        hfive]
    rw [Format.datum?, hread]
    rfl
  have hopen : Datum.LeavesShapeOpen [nullable] := by
    rw [Datum.LeavesShapeOpen, List.forall_mem_singleton]
    refine ⟨by simp [nullable], fun name hname heq => ?_⟩
    obtain rfl : "nullable" = name := Option.some.inj (Option.some.inj heq)
    exact absurd hname (by decide)
  refine ⟨htext, hconstant, hlisted, hopen, trivial, rfl, ?_⟩
  rcases Schema.const_eq_enum_iff .json text constant listed [nullable] [] (.int 5) (.int 5) htext
    hconstant hlisted hopen trivial rfl with
    ⟨hnone, -, -⟩ | ⟨_, _, _, -, hconst, henum, -, hsame, -⟩
  · rw [Schema.ofText?_eq, htext] at hnone
    cases hnone
  · exact ⟨_, _, hconst, henum, hsame.mpr (by simp)⟩

/-- The constant `null` is no constant: the schema accepts `true`, and the list of `null` does
not. -/
theorem Schema.const_null_ignored :
    let constant := "\x7b\"const\":null\x7d"
    let listed := "\x7b\"enum\":[null]\x7d"
    ∃ withConst withEnum, Schema.ofText? .json constant = some withConst ∧
      Schema.ofText? .json listed = some withEnum ∧
      Shape.ofSchema withConst = .unknown ∧ Shape.ofSchema withEnum = .literal [.null] ∧
      ∀ (scope : Scope) path owner inline,
        scope.convert path owner inline (Shape.ofSchema withConst) = .any ∧
        scope.convert path owner inline (Shape.ofSchema withEnum) = .null ∧
        ∀ other, Validator.any.Accepts other (.bool true) ∧
          ¬ Validator.null.Accepts other (.bool true) := by
  intro constant listed
  have hconstant : Format.datum? .json constant = some (.record [(.text "const", .null)]) := by
    have hread : Json.Tree.read? constant = some (.object [(some "const", .null)]) := by
      simp only [constant]
      cbv
    rw [Format.datum?, hread]
    rfl
  have hlisted : Format.datum? .json listed = some (.record [(.text "enum", .list [.null])]) := by
    have hread : Json.Tree.read? listed = some (.object [(some "enum", .array [.null])]) := by
      simp only [listed]
      cbv
    rw [Format.datum?, hread]
    rfl
  refine ⟨_, _, by rw [Schema.ofText?_eq, hconstant]; rfl, by rw [Schema.ofText?_eq, hlisted]; rfl,
    rfl, rfl, fun scope path owner inline => ⟨?_, ?_, fun other => ⟨trivial, ?_⟩⟩⟩
  · exact Scope.convert_unknown scope path owner inline
  · exact Scope.convert_literal scope path owner inline none .null
  · simp [Validator.Accepts]

end OpenApiZod
