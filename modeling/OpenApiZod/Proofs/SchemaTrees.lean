import OpenApiZod.Shape

/-!
# Schemas as trees

A schema is a reference or a set of keywords with schemas as parts. `Schema.induction` proves what
holds of all schemas from what passes on from parts to keywords, and `Schema.fold` computes what
each level makes of its parts. The shape of a schema is computed in this way
(`Shape.ofSchema_inline`): it depends on a part through the shape of that part alone.
-/

namespace OpenApiZod

/-! ### Parts of keywords -/

namespace Additional

variable {σ τ : Type}

/-- The value with `f` applied to the schema in it. -/
def map (f : σ → τ) : Additional σ → Additional τ
  | .flag allowed => .flag allowed
  | .schema values => .schema (f values)

/-- The schema in the value, if there is one. -/
def part? : Additional σ → Option σ
  | .flag _ => none
  | .schema values => some values

end Additional

namespace Keywords

variable {σ τ υ : Type}

/-- The keywords with `f` applied to all parts. -/
def map (f : σ → τ) (k : Keywords σ) : Keywords τ :=
  { k with
    properties := k.properties.map fun p => (p.1, f p.2)
    additional := k.additional.map (·.map f)
    items := k.items.map f
    allOf := k.allOf.map f
    oneOf := k.oneOf.map f
    anyOf := k.anyOf.map f }

/-- The parts of keywords. -/
def parts (k : Keywords σ) : List σ :=
  k.properties.map Prod.snd ++ (k.additional.bind (·.part?)).toList ++ k.items.toList ++ k.allOf ++
    k.oneOf ++ k.anyOf

/-- Keywords that are mapped twice are mapped by the composition. -/
theorem map_map (f : σ → τ) (g : τ → υ) (k : Keywords σ) :
    (k.map f).map g = k.map (g ∘ f) := by
  have hadditional : ∀ a : Additional σ, (a.map f).map g = a.map (g ∘ f) := by
    rintro (_ | _) <;> rfl
  simp only [map, List.map_map, Option.map_map, Function.comp_def, hadditional]

/-- The parts of mapped keywords are the mapped parts. -/
theorem parts_map (f : σ → τ) (k : Keywords σ) : (k.map f).parts = k.parts.map f := by
  have hpart : ∀ a : Additional σ, (a.map f).part? = a.part?.map f := by
    rintro (_ | _) <;> rfl
  have hadditional : ((k.additional.map (·.map f)).bind (·.part?)).toList =
      (k.additional.bind (·.part?)).toList.map f := by
    rw [← Option.toList_map, Option.map_bind, Option.bind_map]
    exact congrArg (Option.toList <| k.additional.bind ·) (funext hpart)
  simp only [parts, map, hadditional, Option.toList_map, List.map_append, List.map_map,
    Function.comp_def]

/-- Two functions that agree on the parts do the same to keywords. -/
theorem map_congr {f g : σ → τ} {k : Keywords σ} (h : ∀ part ∈ k.parts, f part = g part) :
    k.map f = k.map g := by
  simp only [parts, List.append_assoc, List.forall_mem_append, List.forall_mem_map,
    Option.mem_toList] at h
  obtain ⟨hproperties, hadditional, hitems, hallOf, honeOf, hanyOf⟩ := h
  have hextra : k.additional.map (·.map f) = k.additional.map (·.map g) := by
    rcases hk : k.additional with _ | _ | values
    · rfl
    · rfl
    · have hvalues : f values = g values := hadditional values (by rw [hk]; rfl)
      simp only [Option.map_some, Additional.map, hvalues]
  have hentries : (k.properties.map fun p => (p.1, f p.2)) =
      k.properties.map fun p => (p.1, g p.2) :=
    List.map_congr_left fun p hp => by rw [hproperties p hp]
  simp only [map, hextra, hentries, Option.map_congr hitems, List.map_congr_left hallOf,
    List.map_congr_left honeOf, List.map_congr_left hanyOf]

end Keywords

/-! ### Induction and recursion -/

namespace Schema

/-- Parts are smaller than what they are parts of. -/
theorem sizeOf_lt_of_mem_parts {k : Keywords Schema} {s : Schema} (h : s ∈ k.parts) :
    sizeOf s < sizeOf k := by
  obtain ⟨type, format, description, nullable, properties, required, additional, items, allOf,
    oneOf, anyOf⟩ := k
  simp only [Keywords.parts, List.mem_append, List.mem_map, Option.mem_toList] at h
  rw [Keywords.mk.sizeOf_spec]
  rcases h with ((((⟨⟨name, value⟩, hp, rfl⟩ | h) | h) | hall) | hall) | hall
  · have hsize := List.sizeOf_lt_of_mem hp
    rw [Prod.mk.sizeOf_spec] at hsize
    show sizeOf value < _
    omega
  · obtain ⟨_ | values, ha, hpart⟩ := Option.bind_eq_some_iff.mp h
    · exact nomatch hpart
    · obtain rfl : values = s := Option.some.inj hpart
      obtain rfl : additional = some (.schema values) := ha
      simp only [Option.some.sizeOf_spec, Additional.schema.sizeOf_spec]
      omega
  · obtain rfl : items = some s := h
    rw [Option.some.sizeOf_spec]
    omega
  all_goals
    have hsize := List.sizeOf_lt_of_mem hall
    omega

/-- What holds of references, and of keywords if it holds of their parts, holds of all schemas. -/
@[elab_as_elim]
theorem induction {P : Schema → Prop} (reference : ∀ target, P (.reference target))
    (inline : ∀ k : Keywords Schema, (∀ part ∈ k.parts, P part) → P (.inline k)) : ∀ s, P s
  | .reference target => reference target
  | .inline k => inline k fun part _ => induction reference inline part
termination_by s => sizeOf s
decreasing_by
  have hsize := sizeOf_lt_of_mem_parts ‹_›
  rw [Schema.inline.sizeOf_spec]
  omega

section Fold

variable {α : Type} (onReference : String → α) (onKeywords : Keywords α → α)

mutual

/-- What becomes of a schema, given what becomes of a reference, and of keywords when it is known
what becomes of their parts. -/
def fold : Schema → α
  | .reference target => onReference target
  | .inline k => onKeywords
      { k with
        properties := foldProperties k.properties
        additional := foldAdditional k.additional
        items := foldOption k.items
        allOf := foldAll k.allOf
        oneOf := foldAll k.oneOf
        anyOf := foldAll k.anyOf }

/-- What becomes of properties. -/
def foldProperties : List (String × Schema) → List (String × α)
  | [] => []
  | (name, s) :: rest => (name, fold s) :: foldProperties rest

/-- What becomes of additional properties. -/
def foldAdditional : Option (Additional Schema) → Option (Additional α)
  | none => none
  | some (.flag allowed) => some (.flag allowed)
  | some (.schema values) => some (.schema (fold values))

/-- What becomes of items. -/
def foldOption : Option Schema → Option α
  | none => none
  | some s => some (fold s)

/-- What becomes of members. -/
def foldAll : List Schema → List α
  | [] => []
  | s :: rest => fold s :: foldAll rest

end

/-- Properties are folded one by one. -/
theorem foldProperties_eq_map (properties : List (String × Schema)) :
    foldProperties onReference onKeywords properties =
      properties.map fun p => (p.1, fold onReference onKeywords p.2) := by
  induction properties with
  | nil => rfl
  | cons p rest ih => rw [foldProperties, ih, List.map_cons]

/-- So is the schema of additional properties. -/
theorem foldAdditional_eq_map : ∀ additional : Option (Additional Schema),
    foldAdditional onReference onKeywords additional =
      additional.map (·.map (fold onReference onKeywords))
  | none => rfl
  | some (.flag _) => rfl
  | some (.schema _) => rfl

/-- So is the schema of items. -/
theorem foldOption_eq_map : ∀ items : Option Schema,
    foldOption onReference onKeywords items = items.map (fold onReference onKeywords)
  | none => rfl
  | some _ => rfl

/-- So are the members of a composition. -/
theorem foldAll_eq_map (members : List Schema) :
    foldAll onReference onKeywords members = members.map (fold onReference onKeywords) := by
  induction members with
  | nil => rfl
  | cons s rest ih => rw [foldAll, ih, List.map_cons]

/-- A schema that is written out is folded after its parts. -/
theorem fold_inline (k : Keywords Schema) :
    fold onReference onKeywords (.inline k) =
      onKeywords (k.map (fold onReference onKeywords)) := by
  rw [fold, foldProperties_eq_map, foldAdditional_eq_map, foldOption_eq_map, foldAll_eq_map,
    foldAll_eq_map, foldAll_eq_map]
  rfl

end Fold

/-- A function that passes through each level of one recursion turns it into another one. -/
theorem fold_fusion {α β : Type} {onReference : String → α} {onKeywords : Keywords α → α}
    {onReference' : String → β} {onKeywords' : Keywords β → β} {f : α → β}
    (hreference : ∀ target, f (onReference target) = onReference' target)
    (hkeywords : ∀ k, f (onKeywords k) = onKeywords' (k.map f)) (s : Schema) :
    f (s.fold onReference onKeywords) = s.fold onReference' onKeywords' := by
  induction s using Schema.induction with
  | reference target => exact hreference target
  | inline k ih =>
      rw [fold_inline, fold_inline, hkeywords, Keywords.map_map]
      exact congrArg onKeywords' (Keywords.map_congr ih)

end Schema

/-! ### Shapes -/

namespace Shape

/-- The shapes of properties, one by one. -/
theorem ofProperties_eq_map (properties : List (String × Schema)) :
    ofProperties properties = properties.map fun p => (p.1, ofSchema p.2) := by
  induction properties with
  | nil => rfl
  | cons p rest ih => rw [ofProperties, ih, List.map_cons]

/-- The shape of additional properties. -/
theorem ofAdditional_eq_map : ∀ additional : Option (Additional Schema),
    ofAdditional additional = additional.map (·.map ofSchema)
  | none => rfl
  | some (.flag _) => rfl
  | some (.schema _) => rfl

/-- The shape of items. -/
theorem ofOption_eq_map : ∀ items : Option Schema, ofOption items = items.map ofSchema
  | none => rfl
  | some _ => rfl

/-- The shapes of members, one by one. -/
theorem ofSchemas_eq_map (members : List Schema) : ofSchemas members = members.map ofSchema := by
  induction members with
  | nil => rfl
  | cons s rest ih => rw [ofSchemas, ih, List.map_cons]

/-- The shape of a reference is one to the last segment of its target. -/
theorem ofSchema_reference (target : String) :
    ofSchema (.reference target) = .reference (Reference.lastSegment target) := by
  rw [ofSchema]

/-- The shape of keywords depends on the shapes of their parts. -/
theorem ofSchema_inline (k : Keywords Schema) :
    ofSchema (.inline k) = ofKeywords (k.map ofSchema) := by
  rw [ofSchema, ofProperties_eq_map, ofAdditional_eq_map, ofOption_eq_map, ofSchemas_eq_map,
    ofSchemas_eq_map, ofSchemas_eq_map]
  rfl

/-- Shapes are a fold over schemas. -/
theorem ofSchema_eq_fold (s : Schema) :
    ofSchema s = s.fold (fun target => .reference (Reference.lastSegment target)) ofKeywords := by
  induction s using Schema.induction with
  | reference target => exact ofSchema_reference target
  | inline k ih =>
      rw [ofSchema_inline, Schema.fold_inline]
      exact congrArg ofKeywords (Keywords.map_congr ih)

/-- Keywords never make a reference: that is for schemas that are one. -/
theorem base_ne_reference (k : Keywords Shape) (target : String) : base k ≠ .reference target := by
  have hone (name : TypeName) : ofType k name ≠ .reference target := by cases name <;> exact nofun
  have hinferred : inferred k ≠ .reference target := by
    rw [inferred]
    split
    · exact nofun
    split
    · exact nofun
    split <;> exact nofun
  rw [base]
  split
  · exact nofun
  split
  · exact nofun
  split
  · exact nofun
  split
  · exact nofun
  split
  · exact hone _
  · rw [ofTypes]
    split <;> first | exact hone _ | exact nofun
  · exact hinferred

end Shape

end OpenApiZod
