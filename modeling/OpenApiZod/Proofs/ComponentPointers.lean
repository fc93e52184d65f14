import Mathlib.Data.List.TakeWhile
import OpenApiZod.Proofs.DocumentSchemas
import OpenApiZod.Proofs.InlineConversion
import OpenApiZod.Proofs.SchemaTrees

/-!
# Pointers to components

A pointer to a component is `#/components/schemas/` and the name of the component, with `~0` for `~`
and `~1` for `/`. `Reference.lastSegment` takes what follows the last slash and leaves the escapes
in it, so a pointer refers to the escaped name (`Reference.lastSegment_toSchema`). The escaped name
has no slash and can be read back, so pointers to different components refer to different names; it
is the name itself if and only if there is nothing to escape (`Reference.escape_eq_iff`).

This holds wherever a reference stands, since the shape of a schema is made of the shapes of its
parts, and nothing else is asked of them (`Shape.ofSchema_retarget`).
-/

namespace OpenApiZod

/-! ### Escapes -/

namespace Reference

/-- The spelling of a character inside a segment of a pointer. -/
def escapeChar : Char → List Char
  | '~' => ['~', '0']
  | '/' => ['~', '1']
  | c => [c]

/-- The spelling of a name as a segment of a pointer. -/
def escape (name : String) : String := .ofList (name.toList.flatMap escapeChar)

/-- The characters that a segment of a pointer spells. -/
def unescapeChars : List Char → List Char
  | '~' :: '0' :: rest => '~' :: unescapeChars rest
  | '~' :: '1' :: rest => '/' :: unescapeChars rest
  | c :: rest => c :: unescapeChars rest
  | [] => []

/-- The text with `#/components/schemas/` before it. -/
def inSchemas (segment : String) : String := "#/components/schemas" ++ "/" ++ segment

/-- The pointer to a component. -/
def toSchema (name : String) : String := inSchemas (escape name)

/-- Names are escaped character by character. -/
theorem toList_escape (name : String) : (escape name).toList = name.toList.flatMap escapeChar :=
  String.toList_ofList

/-- A character is one of the two that are escaped, or stands for itself. -/
theorem escapeChar_cases (c : Char) :
    c = '~' ∨ c = '/' ∨ c ≠ '~' ∧ c ≠ '/' ∧ escapeChar c = [c] := by
  by_cases htilde : c = '~'
  · exact .inl htilde
  by_cases hslash : c = '/'
  · exact .inr (.inl hslash)
  · refine .inr (.inr ⟨htilde, hslash, ?_⟩)
    rw [escapeChar]
    · exact htilde
    · exact hslash

/-- Only a tilde begins an escape. -/
theorem unescapeChars_cons {c : Char} (h : c ≠ '~') (cs : List Char) :
    unescapeChars (c :: cs) = c :: unescapeChars cs := by
  rw [unescapeChars]
  all_goals
    rintro _ rfl
    exact absurd rfl h

/-- Escapes are read back. -/
theorem unescapeChars_flatMap_escapeChar (cs : List Char) :
    unescapeChars (cs.flatMap escapeChar) = cs := by
  induction cs with
  | nil => rfl
  | cons c cs ih =>
      rw [List.flatMap_cons]
      obtain rfl | rfl | ⟨htilde, -, hc⟩ := escapeChar_cases c
      · exact congrArg ('~' :: ·) ih
      · exact congrArg ('/' :: ·) ih
      · rw [hc, List.singleton_append, unescapeChars_cons htilde, ih]

/-- Different names are escaped differently, since escapes can be undone. -/
theorem escape_injective : Function.Injective escape := by
  intro name name' h
  have hchars := congrArg (fun text => unescapeChars text.toList) h
  simp only [toList_escape, unescapeChars_flatMap_escapeChar] at hchars
  exact String.toList_inj.mp hchars

/-- An escaped name has no slash. -/
theorem slash_not_mem_flatMap_escapeChar (cs : List Char) : '/' ∉ cs.flatMap escapeChar := by
  rw [List.mem_flatMap]
  rintro ⟨c, -, hmem⟩
  obtain rfl | rfl | ⟨-, hslash, hc⟩ := escapeChar_cases c
  · exact absurd hmem (by decide)
  · exact absurd hmem (by decide)
  · rw [hc, List.mem_singleton] at hmem
    exact hslash hmem.symm

/-- Escaping makes no name shorter. -/
theorem length_le_length_flatMap_escapeChar (cs : List Char) :
    cs.length ≤ (cs.flatMap escapeChar).length := by
  have hchar : ∀ c, 1 ≤ (escapeChar c).length := fun c => by
    obtain rfl | rfl | ⟨-, -, hc⟩ := escapeChar_cases c
    · decide
    · decide
    · rw [hc, List.length_singleton]
  induction cs with
  | nil => exact Nat.zero_le _
  | cons c cs ih =>
      rw [List.flatMap_cons, List.length_append, List.length_cons, Nat.add_comm]
      exact Nat.add_le_add (hchar c) ih

/-- Escapes change every text that has something to escape: a slash becomes another character, and a
tilde one more than before. -/
theorem flatMap_escapeChar_eq_iff (cs : List Char) :
    cs.flatMap escapeChar = cs ↔ '~' ∉ cs ∧ '/' ∉ cs := by
  induction cs with
  | nil => exact iff_of_true rfl ⟨List.not_mem_nil, List.not_mem_nil⟩
  | cons c cs ih =>
      rw [List.flatMap_cons, List.mem_cons, List.mem_cons]
      obtain rfl | rfl | ⟨htilde, hslash, hc⟩ := escapeChar_cases c
      · refine iff_of_false (fun h => ?_) fun h => h.1 (.inl rfl)
        have hlength := congrArg List.length h
        have hle := length_le_length_flatMap_escapeChar cs
        rw [List.length_append, List.length_cons] at hlength
        exact absurd hlength (by show 2 + _ ≠ _; omega)
      · exact iff_of_false (fun h => nomatch List.head_eq_of_cons_eq h) fun h => h.2 (.inl rfl)
      · rw [hc, List.singleton_append, List.cons.injEq, ih, or_iff_right htilde.symm,
          or_iff_right hslash.symm]
        exact and_iff_right rfl

/-- A name is its own spelling if and only if it has nothing to escape. -/
theorem escape_eq_iff (name : String) :
    escape name = name ↔ '~' ∉ name.toList ∧ '/' ∉ name.toList := by
  rw [← flatMap_escapeChar_eq_iff, ← toList_escape, String.toList_inj]

/-! ### Last segments -/

/-- What stands before a slash does not count. -/
theorem lastSegment_append_slash (before segment : String) :
    lastSegment (before ++ "/" ++ segment) = lastSegment segment := by
  have hchars : (before ++ "/" ++ segment).toList.reverse =
      segment.toList.reverse ++ '/' :: before.toList.reverse := by
    simp only [String.toList_append, List.reverse_append]
    rfl
  have htake : ∀ cs rest : List Char,
      (cs ++ '/' :: rest).takeWhile (· ≠ '/') = cs.takeWhile (· ≠ '/') := fun cs rest => by
    induction cs with
    | nil => rfl
    | cons c cs ih => rw [List.cons_append, List.takeWhile_cons, List.takeWhile_cons, ih]
  rw [lastSegment, lastSegment, hchars, htake]

/-- A text without slashes is its own last segment. -/
theorem lastSegment_of_not_mem {segment : String} (h : '/' ∉ segment.toList) :
    lastSegment segment = segment := by
  have hall : segment.toList.reverse.takeWhile (· ≠ '/') = segment.toList.reverse := by
    rw [List.takeWhile_eq_self_iff]
    intro c hc
    have hmem := List.mem_reverse.mp hc
    exact decide_eq_true fun heq => h (heq ▸ hmem)
  rw [lastSegment, hall, List.reverse_reverse, String.ofList_toList]

/-- What stands before the last segment of a reference does not matter. -/
theorem lastSegment_inSchemas (segment : String) :
    lastSegment (inSchemas segment) = lastSegment segment :=
  lastSegment_append_slash "#/components/schemas" segment

/-- A pointer to a component refers to the escaped name. -/
theorem lastSegment_toSchema (name : String) : lastSegment (toSchema name) = escape name := by
  rw [toSchema, lastSegment_inSchemas, lastSegment_of_not_mem]
  rw [toList_escape]
  exact slash_not_mem_flatMap_escapeChar _

end Reference

/-! ### Shapes of references -/

namespace Schema

/-- The schema with other targets of references. -/
def retarget (f : String → String) : Schema → Schema :=
  fold (fun target => .reference (f target)) .inline

/-- What becomes of a schema with other targets. -/
theorem fold_retarget {α : Type} (onReference : String → α) (onKeywords : Keywords α → α)
    (f : String → String) (s : Schema) :
    (s.retarget f).fold onReference onKeywords =
      s.fold (fun target => onReference (f target)) onKeywords :=
  fold_fusion (fun _ => rfl) (fun k => fold_inline onReference onKeywords k) s

end Schema

namespace Shape

/-- The shape of a schema whose references give names and not pointers. -/
def ofNamed : Schema → Shape := Schema.fold .reference ofKeywords

section Naturality

variable (f : String → Shape)

/-- Substitution changes each member. -/
theorem substituteMembers_eq_map (members : List Shape) :
    substituteMembers f members = members.map (substitute f) := by
  induction members with
  | nil => rfl
  | cons s rest ih => rw [substituteMembers, ih, List.map_cons]

/-- It changes the shape of each property and keeps the names. -/
theorem substituteProperties_eq_map (properties : List (String × Shape)) :
    substituteProperties f properties = properties.map fun p => (p.1, substitute f p.2) := by
  induction properties with
  | nil => rfl
  | cons p rest ih => rw [substituteProperties, ih, List.map_cons]

/-- The treatment of other properties may be changed in the shape or in the keywords. -/
theorem substituteExtra_extraOf (additional : Option (Additional Shape)) :
    substituteExtra f (extraOf additional) = extraOf (additional.map (·.map (substitute f))) := by
  rcases additional with _ | (_ | _) | _ <;> rfl

/-- So may an object. -/
theorem substitute_ofObject (k : Keywords Shape) :
    substitute f (ofObject k) = ofObject (k.map (substitute f)) := by
  rw [ofObject, substitute, substituteProperties_eq_map, substituteExtra_extraOf]
  rfl

/-- So may an array. -/
theorem substitute_ofArray (k : Keywords Shape) :
    substitute f (ofArray k) = ofArray (k.map (substitute f)) := by
  rw [ofArray, ofArray, Keywords.map]
  cases k.items <;> rfl

/-- So may the shape of one type. -/
theorem substitute_ofType (k : Keywords Shape) (name : TypeName) :
    substitute f (ofType k name) = ofType (k.map (substitute f)) name := by
  cases name with
  | array => exact substitute_ofArray f k
  | object => exact substitute_ofObject f k
  | _ => rfl

/-- And that of a list of types. -/
theorem substitute_ofTypes (k : Keywords Shape) (names : List TypeName) :
    substitute f (ofTypes k names) = ofTypes (k.map (substitute f)) names := by
  have hmembers : ∀ names : List TypeName, substituteMembers f (names.map (ofType k)) =
      names.map (ofType (k.map (substitute f))) := fun names => by
    rw [substituteMembers_eq_map, List.map_map]
    exact List.map_congr_left fun name _ => substitute_ofType f k name
  rw [ofTypes, ofTypes]
  split <;> simp only [substitute, substitute_ofType, hmembers]

/-- So may a shape without a type, since what it is inferred from stays. -/
theorem substitute_inferred (k : Keywords Shape) :
    substitute f (inferred k) = inferred (k.map (substitute f)) := by
  simp only [inferred, apply_ite (substitute f), substitute_ofObject, substitute_ofArray,
    Keywords.map, List.isEmpty_map, Option.isSome_map]
  rfl

/-- So may a shape before `null` is added to it. -/
theorem substitute_base (k : Keywords Shape) :
    substitute f (base k) = base (k.map (substitute f)) := by
  have hall : (k.map (substitute f)).allOf.isEmpty = k.allOf.isEmpty := List.isEmpty_map
  have hone : (k.map (substitute f)).oneOf.isEmpty = k.oneOf.isEmpty := List.isEmpty_map
  have hany : (k.map (substitute f)).anyOf.isEmpty = k.anyOf.isEmpty := List.isEmpty_map
  have hproperties : (k.map (substitute f)).properties.isEmpty = k.properties.isEmpty :=
    List.isEmpty_map
  have hcomposition : ∀ kind members, substitute f (composition kind members) =
      composition kind (members.map (substitute f)) := fun kind members => by
    rw [substitute, substituteMembers_eq_map]
  rw [base, base, hall, hone, hany, hproperties]
  split_ifs
  · rw [hcomposition, List.map_append]
    rfl
  · rw [hcomposition, List.map_append, List.map_singleton, substitute_ofObject]
    rfl
  · exact hcomposition .oneOf k.oneOf
  · exact hcomposition .anyOf k.anyOf
  · have hconst : (k.map (substitute f)).const = k.const := rfl
    have htype : (k.map (substitute f)).type = k.type := rfl
    rw [hconst, htype]
    rcases k.const with _ | value
    · rcases k.type with _ | name | names
      · exact substitute_inferred f k
      · exact substitute_ofType f k name
      · exact substitute_ofTypes f k names
    · rfl

/-- To lower keywords and then to put shapes in the places of references is to do so in their
parts. -/
theorem substitute_ofKeywords (k : Keywords Shape) :
    substitute f (ofKeywords k) = ofKeywords (k.map (substitute f)) := by
  rw [ofKeywords, ofKeywords, ← substitute_base]
  cases hbase : base k with
  | reference target => exact absurd hbase (base_ne_reference k target)
  | null | nullable | unknown => rfl
  | array items => cases items <;> exact apply_ite (substitute f) ..
  | _ => exact apply_ite (substitute f) ..

end Naturality

/-- To substitute in a lowered schema is to lower with the substitutes. -/
theorem substitute_ofNamed (f : String → Shape) (s : Schema) :
    substitute f (ofNamed s) = s.fold f ofKeywords :=
  Schema.fold_fusion (fun target => by rw [substitute]) (substitute_ofKeywords f) s

/-- To lower a schema is to lower its references, wherever they stand. -/
theorem ofSchema_retarget {f g : String → String}
    (h : ∀ target, Reference.lastSegment (f target) = g target) (s : Schema) :
    ofSchema (s.retarget f) = substitute (fun target => .reference (g target)) (ofNamed s) := by
  rw [ofSchema_eq_fold, Schema.fold_retarget, substitute_ofNamed]
  simp only [h]

end Shape

/-! ### Documents -/

open Reference

/-- Components are the same after `#/components/schemas/` has been added to all their references. -/
theorem Component.ofSchema_retarget_inSchemas (name : String) (s : Schema) :
    ofSchema name (s.retarget inSchemas) = ofSchema name s := by
  have hshape : Shape.ofSchema (s.retarget inSchemas) = Shape.ofSchema s := by
    rw [Shape.ofSchema_eq_fold, Schema.fold_retarget, Shape.ofSchema_eq_fold]
    simp only [lastSegment_inSchemas]
  cases s with
  | reference target => exact congrArg (Component.mk name none) hshape
  | inline k => exact congrArg (Component.mk name k.description) hshape

/-- **Pointers.** `#/components/schemas/` before the references of a document adds nothing, and the
escapes after it stay. So wherever the pointer to a component stands, it becomes a reference to the
escaped name, which is the name itself if and only if there is nothing to escape. That is so in a
schema of such pointers alone, and in one where some references, those with a `component?`, are
pointers to components and the others are not. Pointers to different components become different
references. -/
theorem Api.ofDocument_pointers :
    (∀ (naming : Naming) (d : Document),
      Api.ofDocument naming (d.mapSchemas (.retarget inSchemas)) = Api.ofDocument naming d) ∧
    (∀ s : Schema, Shape.ofSchema (s.retarget toSchema) =
      Shape.substitute (fun name => .reference (escape name)) (Shape.ofNamed s)) ∧
    (∀ (component? : String → Option String) (s : Schema),
      Shape.ofSchema (s.retarget fun target => (component? target).elim target toSchema) =
        Shape.substitute (fun target =>
          .reference ((component? target).elim (lastSegment target) escape)) (Shape.ofNamed s)) ∧
    (∀ name : String, Shape.ofSchema (.reference (toSchema name)) = .reference name ↔
      '~' ∉ name.toList ∧ '/' ∉ name.toList) ∧
    ∀ name name' : String, Shape.ofSchema (.reference (toSchema name)) =
      Shape.ofSchema (.reference (toSchema name')) → name = name' := by
  refine ⟨fun naming d => ofDocument_mapSchemas Component.ofSchema_retarget_inSchemas naming d,
    Shape.ofSchema_retarget lastSegment_toSchema,
    fun component? s => Shape.ofSchema_retarget (fun target => ?_) s, fun name => ?_,
    fun name name' h => ?_⟩
  · cases component? target with
    | none => rfl
    | some name => exact lastSegment_toSchema name
  · rw [Shape.ofSchema_reference, lastSegment_toSchema, Shape.reference.injEq, escape_eq_iff]
  · rw [Shape.ofSchema_reference, Shape.ofSchema_reference, lastSegment_toSchema,
      lastSegment_toSchema, Shape.reference.injEq] at h
    exact escape_injective h

/-- A pointer to the component `v1/Pet` refers to another component. -/
theorem reference_other_component :
    let schemas : Table Schema := .ofList [("v1/Pet", .inline (.ofType .boolean)),
      ("v1~1Pet", .inline (.ofType .string)), ("Favourite", .reference (toSchema "v1/Pet"))]
    let d : Document := ⟨"3.0.0", ⟨"Pets", "1"⟩, none, some ⟨schemas, .empty, .empty⟩⟩
    ∃ checked, Api.ofDocument .default d = .ok checked ∧
      ["v1/Pet", "v1~1Pet"] ⊆ checked.value.components.keys ∧
      (checked.value.components.get? "Favourite").map (·.shape) = some (.reference "v1~1Pet") := by
  intro schemas d
  exact ⟨_, rfl, by decide, rfl⟩

end OpenApiZod
