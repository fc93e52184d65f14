import Mathlib.Tactic.Common
import OpenApiZod.Proofs.Spellings

/-!
# Shapes as trees

A shape has other shapes as parts. `Shape.Everywhere P` says that `P` holds of a shape and of all
shapes in it, however deep.

The shape of a schema is made level by level. At each level the keywords make a composition, a
literal, the shape of a type or a nullable around one of these. What holds of all that is made at
one level, and of the shapes that the keywords have as parts, holds everywhere in the shape that
they make (`Shape.everywhere_ofKeywords`), and what holds at all levels of a schema passes to its
shape (`Shape.everywhere_ofSchema`).
-/

namespace OpenApiZod

/-- The shape of further properties, if there is one. -/
def Extra.part? {σ : Type} : Extra σ → Option σ
  | .typed values => some values
  | _ => none

namespace Shape

/-- The shapes that a shape is made of. -/
def parts : Shape → List Shape
  | .composition _ members => members
  | .array items _ _ => items.toList
  | .object properties _ extra => properties.map Prod.snd ++ extra.part?.toList
  | .nullable inner => [inner]
  | _ => []

/-- What holds of a shape and of all shapes in it. -/
inductive Everywhere (P : Shape → Prop) : Shape → Prop
  | intro {s : Shape} (own : P s) (parts : ∀ part ∈ s.parts, Everywhere P part) : Everywhere P s

/-- What holds everywhere in a shape holds of the shape. -/
theorem Everywhere.own {P : Shape → Prop} {s : Shape} : s.Everywhere P → P s
  | .intro own _ => own

/-- It holds everywhere in its parts. -/
theorem Everywhere.part {P : Shape → Prop} {s part : Shape} (hpart : part ∈ s.parts) :
    s.Everywhere P → part.Everywhere P
  | .intro _ parts => parts part hpart

/-- Whether a nullable says more than the shape in it: that shape is neither `null` nor nullable,
nor a reference, which stands for a shape that may be either. -/
def TakesNull : Shape → Prop
  | .null | .nullable _ | .reference _ => False
  | _ => True

/-! ### One type -/

/-- The shape of a type has no parts but those of the keywords. -/
theorem parts_ofType_subset (k : Keywords Shape) (name : TypeName) :
    (ofType k name).parts ⊆ k.parts := by
  intro part hpart
  simp only [Keywords.parts, List.mem_append]
  cases name with
  | array => exact Or.inl (Or.inl (Or.inl (Or.inr hpart)))
  | object =>
      rcases List.mem_append.mp hpart with hproperty | hvalues
      · exact Or.inl (Or.inl (Or.inl (Or.inl (Or.inl hproperty))))
      · refine Or.inl (Or.inl (Or.inl (Or.inl (Or.inr ?_))))
        cases hadditional : k.additional with
        | none =>
            rw [hadditional] at hvalues
            exact absurd hvalues List.not_mem_nil
        | some additional =>
            rw [hadditional] at hvalues
            cases additional with
            | flag allowed => cases allowed <;> exact absurd hvalues List.not_mem_nil
            | schema values => exact hvalues
  | _ => exact absurd hpart List.not_mem_nil

/-- A nullable says more than the shape of a type in it, unless that type is `null`. -/
theorem takesNull_ofType (k : Keywords Shape) {name : TypeName} (h : name ≠ .null) :
    (ofType k name).TakesNull := by
  cases name with
  | null => exact absurd rfl h
  | _ => trivial

/-! ### One level -/

section Level

variable {P : Shape → Prop} {k : Keywords Shape}

/-- What holds of all that one level of keywords makes, its parts apart. -/
structure HoldsAtLevel (P : Shape → Prop) (k : Keywords Shape) : Prop where
  ofType : ∀ name, P (ofType k name)
  composition : ∀ kind members, members ≠ [] → P (.composition kind members)
  literal : ∀ values, values ≠ [] → P (.literal values)
  nullable : ∀ inner, inner.TakesNull → P (.nullable inner)

variable (h : HoldsAtLevel P k) (hparts : ∀ part ∈ k.parts, part.Everywhere P)

include h hparts

/-- What all cases give holds everywhere in the shape of a type. -/
theorem everywhere_ofType (name : TypeName) : (ofType k name).Everywhere P :=
  .intro (h.ofType name) fun part hpart => hparts part (parts_ofType_subset k name hpart)

/-- So it does in the shape of several types. -/
theorem everywhere_ofTypes (types : List TypeName) : (ofTypes k types).Everywhere P := by
  have hone := everywhere_ofType h hparts
  have hwrapped {inner : Shape} (htakes : inner.TakesNull) (hinner : inner.Everywhere P) :
      (Shape.nullable inner).Everywhere P :=
    .intro (h.nullable inner htakes) (List.forall_mem_singleton.mpr hinner)
  have hnonNull : ∀ name ∈ types.filter (· ≠ .null), name ≠ .null := by
    intro name hname
    simpa using (List.mem_filter.mp hname).2
  rw [ofTypes]
  generalize types.filter (· ≠ .null) = others, decide (.null ∈ types) = hasNull at hnonNull ⊢
  rcases others with _ | ⟨one, _ | ⟨two, rest⟩⟩
  · cases hasNull with
    | true => exact hone .null
    | false => exact hone .other
  · cases hasNull with
    | true => exact hwrapped (takesNull_ofType k (hnonNull one (by simp))) (hone one)
    | false => exact hone one
  · have hmany : (composition .anyOf ((one :: two :: rest).map (ofType k))).Everywhere P :=
      .intro (h.composition _ _ (List.cons_ne_nil _ _))
        (List.forall_mem_map.mpr fun name _ => hone name)
    cases hasNull with
    | true => exact hwrapped trivial hmany
    | false => exact hmany

/-- So it does in a shape that is inferred without a type. -/
theorem everywhere_inferred : (inferred k).Everywhere P := by
  rw [inferred]
  split
  · exact everywhere_ofType h hparts .object
  split
  · exact everywhere_ofType h hparts .array
  split
  · rename_i henum
    exact .intro (h.literal _ (by simpa using henum)) fun _ hpart => absurd hpart List.not_mem_nil
  · exact everywhere_ofType h hparts .other

/-- So it does in a shape before it is made nullable. -/
theorem everywhere_base : (base k).Everywhere P := by
  have hobject := everywhere_ofType h hparts .object
  have hsets := hparts
  simp only [Keywords.parts, List.forall_mem_append] at hsets
  obtain ⟨⟨⟨-, hallOf⟩, honeOf⟩, hanyOf⟩ := hsets
  rw [base]
  split
  · rename_i hne
    refine .intro (h.composition _ _ ?_) (List.forall_mem_append.mpr ⟨hallOf, ?_⟩)
    · exact List.append_ne_nil_of_left_ne_nil (by simpa using hne) _
    · split
      · exact fun _ hpart => absurd hpart List.not_mem_nil
      · exact List.forall_mem_singleton.mpr hobject
  split
  · rename_i hne
    exact .intro (h.composition _ _ (by simpa using hne)) honeOf
  split
  · rename_i hne
    exact .intro (h.composition _ _ (by simpa using hne)) hanyOf
  split
  · exact .intro (h.literal _ (List.cons_ne_nil _ _)) fun _ hpart => absurd hpart List.not_mem_nil
  split
  · exact everywhere_ofType h hparts _
  · exact everywhere_ofTypes h hparts _
  · exact everywhere_inferred h hparts

end Level

/-- What holds of the parts of keywords, and of all that their level makes, holds everywhere in the
shape of the keywords. -/
theorem everywhere_ofKeywords {P : Shape → Prop} {k : Keywords Shape} (h : HoldsAtLevel P k)
    (hparts : ∀ part ∈ k.parts, part.Everywhere P) : (ofKeywords k).Everywhere P := by
  have hbase := everywhere_base h hparts
  have hreference := base_ne_reference k
  rw [ofKeywords]
  generalize base k = shape at hbase hreference ⊢
  have hwrapped (htakes : shape.TakesNull) :
      (if k.nullable = some true then nullable shape else shape).Everywhere P := by
    split
    · exact .intro (h.nullable shape htakes) (List.forall_mem_singleton.mpr hbase)
    · exact hbase
  cases shape with
  | null | nullable | unknown => exact hbase
  | reference target => exact absurd rfl (hreference target)
  | _ => exact hwrapped trivial

/-- What holds of references, and of all that the levels of a schema make, holds everywhere in the
shape of the schema. -/
theorem everywhere_ofSchema {P : Shape → Prop} {Q : Keywords Schema → Prop}
    (hreference : ∀ target, P (.reference target))
    (h : ∀ k, Q k → HoldsAtLevel P (k.map ofSchema)) {s : Schema} (hs : s.Everywhere Q) :
    (ofSchema s).Everywhere P := by
  induction hs with
  | reference target =>
      rw [ofSchema_reference]
      exact .intro (hreference _) fun _ hpart => absurd hpart List.not_mem_nil
  | @inline k own _ ih =>
      rw [ofSchema_inline]
      refine everywhere_ofKeywords (h k own) ?_
      rw [Keywords.parts_map]
      exact List.forall_mem_map.mpr ih

end Shape

/-- What holds of all keywords holds everywhere in a schema. -/
theorem Schema.everywhere_of_forall {Q : Keywords Schema → Prop} (h : ∀ k, Q k) (s : Schema) :
    s.Everywhere Q := by
  induction s using Schema.induction with
  | reference target => exact .reference target
  | inline k ih => exact .inline (h k) ih

end OpenApiZod
