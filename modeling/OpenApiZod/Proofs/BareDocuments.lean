import OpenApiZod.Format
import OpenApiZod.Proofs.BareValues

/-!
# Documents that are read alike

Reading asks of the parts of a document for texts, entries, fields and typed values. A `Simulation`
relates parts of two documents, each where it stands, that answer alike: their typed values may
differ in the siblings of references. Level by level, related parts are read as the same
(`Simulation.document_eq`).

`Json.Tree.bare` removes the siblings of references from a JSON text, and trees that are the same
without them are such parts (`Json.Tree.simulation_bare`). The siblings of a reference stay where
one of them has no typed value, since the reference then has none either, and makes the document
unreadable. In a YAML text a sibling may hold what an alias elsewhere stands for, so siblings are
not removed there: `Yaml.Part.SameBare` compares two texts level by level
(`Yaml.Part.simulation_sameBare`).
-/

namespace OpenApiZod

/-! ### Documents that are read alike -/

/-- Parts of two documents, each with what it is read as, that reading cannot tell apart: related
parts have related fields and entries, the same texts, and typed values that differ in siblings of
references only. -/
structure Simulation {ν ν' : Type} [Source ν] [Source ν'] (R : Position → ν → ν' → Prop) :
    Prop where
  present : ∀ {p part part'}, R p part part' →
    Option.Rel (Option.Rel (R p)) (Optional.present? part) (Optional.present? part')
  text : ∀ {part part'}, R .value part part' → Source.text? part = Source.text? part'
  entries : ∀ {p part part'}, R (.mapOf p) part part' →
    Option.Rel (List.Forall₂ fun e e' => e.1 = e'.1 ∧ R p e.2 e'.2)
      (Source.entries? part) (Source.entries? part')
  fields : ∀ {p part part'}, p.isReferable = false → R p part part' →
    Option.Rel (Fields.Alike fun name => R (p.field name))
      (Source.fields? p.known part) (Source.fields? p.known part')
  datum : ∀ {p part part'}, p.isReferable = true → R p part part' →
    (Source.datum? part).map (Datum.bare p) = (Source.datum? part').map (Datum.bare p)

namespace Simulation

variable {ν ν' α : Type} [Source ν] [Source ν'] {R : Position → ν → ν' → Prop}
  (hR : Simulation R)
include hR

/-- Values that differ in siblings of references are read as the same. -/
theorem datum?_eq {p : Position} (hp : p.isReferable = true) {read : Datum → Option α}
    (hread : ∀ d, read (d.bare p) = read d) {part : ν} {part' : ν'} (h : R p part part') :
    (Source.datum? part).bind read = (Source.datum? part').bind read := by
  have hbare : read ∘ Datum.bare p = read := funext hread
  calc (Source.datum? part).bind read
      = ((Source.datum? part).map (Datum.bare p)).bind read := by rw [Option.bind_map, hbare]
    _ = ((Source.datum? part').map (Datum.bare p)).bind read := by rw [hR.datum hp h]
    _ = (Source.datum? part').bind read := by rw [Option.bind_map, hbare]

/-- Maps of such values are read as the same table. -/
theorem readTyped?_eq {p : Position} (hp : p.isReferable = true) {read : Datum → Option α}
    (hread : ∀ d, read (d.bare p) = read d) {part : ν} {part' : ν'}
    (h : R (.mapOf p) part part') : readTyped? read part = readTyped? read part' :=
  congrArg (Option.map Table.ofList) (Source.readEntries?_eq (P := R p) (hR.entries h)
    fun _ _ => hR.datum?_eq hp hread)

variable {p : Position} {fields : Fields ν} {fields' : Fields ν'}

/-- A field that may be absent is read as the same in both, if its values are. -/
theorem readOptional?_eq (h : Fields.Alike (fun name => R (p.field name)) fields fields')
    (name : String) {read : ν → Option α} {read' : ν' → Option α}
    (hread : ∀ part part', R (p.field name) part part' → read part = read' part') :
    Fields.readOptional? fields name read = Fields.readOptional? fields' name read' :=
  Fields.Alike.readOptional?_eq h name (fun _ _ => hR.present) hread

variable {part : ν} {part' : ν'}

/-- Titles and versions are read as the same. -/
theorem info_eq (h : R .info part part') : Info.read? part = Info.read? part' := by
  refine bind_eq_of_rel (hR.fields rfl h) fun fields fields' hall => ?_
  rw [hall.read?_eq "title" _ fun _ _ => hR.text, hall.read?_eq "version" _ fun _ _ => hR.text]

/-- Operations are read as the same; their bodies and responses may have siblings of references. -/
theorem operation_eq (h : R .operation part part') :
    Operation.read? part = Operation.read? part' := by
  refine bind_eq_of_rel (hR.fields rfl h) fun fields fields' hall => ?_
  have hid := hR.readOptional?_eq hall "operationId" fun _ _ => hR.text
  have hsummary := hR.readOptional?_eq hall "summary" fun _ _ => hR.text
  have hbody := hR.readOptional?_eq hall "requestBody" fun _ _ =>
    hR.datum?_eq rfl (OrReference.ofDatum?_bare rfl RequestBody.ofDatum?_bare)
  rw [hid, hsummary, hbody, hall.read?_eq "responses" _ fun _ _ =>
    hR.readTyped?_eq rfl (OrReference.ofDatum?_bare rfl Response.ofDatum?_bare)]

/-- Paths are read as the same, one method after the other. -/
theorem pathItem_eq (h : R .path part part') : PathItem.read? part = PathItem.read? part' := by
  refine bind_eq_of_rel (hR.fields rfl h) fun fields fields' hall => ?_
  have hsummary := hR.readOptional?_eq hall "summary" fun _ _ => hR.text
  have hfield : ∀ method : Method, Position.path.field method.field = .operation := by
    intro method
    cases method <;> rfl
  have hmethod : ∀ method : Method, Fields.readOptional? fields method.field Operation.read? =
      Fields.readOptional? fields' method.field Operation.read? := fun method =>
    hR.readOptional?_eq hall _ fun _ _ hpart => hR.operation_eq (hfield method ▸ hpart)
  simp only [hsummary, hmethod]

/-- Named parts are read as the same, table by table. -/
theorem components_eq (h : R .components part part') :
    Components.read? part = Components.read? part' := by
  refine bind_eq_of_rel (hR.fields rfl h) fun fields fields' hall => ?_
  rw [hall.read?_eq "schemas" _ fun _ _ => hR.readTyped?_eq rfl Schema.ofDatum?_bare,
    hall.read?_eq "responses" _ fun _ _ =>
      hR.readTyped?_eq rfl (OrReference.ofDatum?_bare rfl Response.ofDatum?_bare),
    hall.read?_eq "requestBodies" _ fun _ _ =>
      hR.readTyped?_eq rfl (OrReference.ofDatum?_bare rfl RequestBody.ofDatum?_bare)]

/-- Documents that reading cannot tell apart are one document. -/
theorem document_eq (h : R .document part part') : Document.read? part = Document.read? part' := by
  refine bind_eq_of_rel (hR.fields rfl h) fun fields fields' hall => ?_
  have hpaths := hR.readOptional?_eq hall "paths" fun _ _ hpart =>
    congrArg (Option.map Table.ofList) (Source.readEntries?_eq (P := R .path) (hR.entries hpart)
      fun _ _ => hR.pathItem_eq)
  have hcomponents := hR.readOptional?_eq hall "components" fun _ _ => hR.components_eq
  rw [hall.read?_eq "openapi" _ fun _ _ => hR.text, hall.read?_eq "info" _ fun _ _ => hR.info_eq,
    hpaths, hcomponents]

end Simulation

/-! ### JSON texts -/

/-- What the value of a member is read as. -/
def Position.member (p : Position) : Option String → Position
  | some name => p.field name
  | none => .value

/-- A text as a key is the field of that name. -/
theorem Position.entry_text (p : Position) (name : String) :
    p.entry (.text name) = p.field name := by
  cases p <;> rfl

namespace Json.Tree

/-- The target of a tree that is a reference where it stands and has a typed value. -/
def target? (p : Position) (t : Tree) : Option String := t.datum?.bind (Datum.target? p)

/-- A reference and nothing else. -/
def referenceTo (target : String) : Tree := .object [(some "$ref", .string (some target))]

mutual

/-- The tree without the siblings of its references, as far as these have typed values. -/
def bare (p : Position) : Tree → Tree
  | .array items => .array (bareItems p.item items)
  | .object members =>
    match target? p (.object members) with
    | some target => referenceTo target
    | none => .object (bareMembers p members)
  | t => t

/-- The elements without the siblings of their references. -/
def bareItems (read : Nat → Position) : List Tree → List Tree
  | [] => []
  | t :: rest => bare (read 0) t :: bareItems (fun n => read (n + 1)) rest

/-- The members without the siblings of references in their values. -/
def bareMembers (p : Position) : List (Option String × Tree) → List (Option String × Tree)
  | [] => []
  | (key, t) :: rest => (key, bare (p.member key) t) :: bareMembers p rest

end

/-- The typed value of a plain reference is one. -/
theorem datum?_referenceTo (target : String) :
    (referenceTo target).datum? = some (Datum.referenceTo target) := rfl

/-- Numbers have no siblings. -/
theorem map_bare_datum? (p : Position) (n : Numeral) :
    n.datum?.map (Datum.bare p) = n.datum? := by
  cases n <;> simp only [Numeral.datum?, Numeral.datum?.finite?] <;> split_ifs <;> rfl

mutual

/-- The typed value of a bare tree is that of the tree, bare. -/
theorem datum?_bare (p : Position) : ∀ t : Tree, (t.bare p).datum? = t.datum?.map (Datum.bare p)
  | .null | .bool _ => rfl
  | .number n => (map_bare_datum? p n).symm
  | .string s => by cases s <;> rfl
  | .array items => by
      rw [bare, datum?, datum?, datumItems?_bare p.item items, Option.map_map, Option.map_map]
      rfl
  | .object members => by
      cases htarget : target? p (.object members) with
      | some target =>
          obtain ⟨d, hd, hreference⟩ := Option.bind_eq_some_iff.mp htarget
          rw [bare, htarget, datum?_referenceTo, hd, Option.map_some,
            Datum.bare_of_target? hreference]
      | none =>
          rw [bare, htarget, datum?, datum?, datumMembers?_bare p members]
          cases hentries : datumMembers? members with
          | none => rfl
          | some entries =>
              rw [target?, datum?, hentries] at htarget
              exact congrArg some (Datum.bare_record htarget).symm

/-- The typed values of bare elements are those of the elements, bare. -/
theorem datumItems?_bare (read : Nat → Position) : ∀ items : List Tree,
    datumItems? (bareItems read items) = (datumItems? items).map (Datum.bareItems read)
  | [] => rfl
  | t :: rest => by
      rw [bareItems, datumItems?, datumItems?, datum?_bare (read 0) t,
        datumItems?_bare (fun n => read (n + 1)) rest]
      cases datum? t <;> cases datumItems? rest <;> rfl

/-- The typed values of bare members are those of the members, bare. -/
theorem datumMembers?_bare (p : Position) : ∀ members : List (Option String × Tree),
    datumMembers? (bareMembers p members) = (datumMembers? members).map (Datum.bareEntries p)
  | [] => rfl
  | (none, t) :: rest => rfl
  | (some name, t) :: rest => by
      unfold bareMembers datumMembers?
      rw [datum?_bare (p.member name) t, datumMembers?_bare p rest, Position.member,
        ← Position.entry_text]
      cases datum? t <;> cases datumMembers? rest <;> rfl

end

/-- Each element is made bare at its own place. -/
theorem bareItems_eq_mapIdx (read : Nat → Position) (items : List Tree) :
    bareItems read items = items.mapIdx fun n t => t.bare (read n) := by
  induction items generalizing read with
  | nil => rfl
  | cons t rest ih => rw [bareItems, List.mapIdx_cons, ih]

/-- Each member is made bare under its own name. -/
theorem bareMembers_eq_map (p : Position) (members : List (Option String × Tree)) :
    bareMembers p members = members.map fun e => (e.1, e.2.bare (p.member e.1)) := by
  induction members with
  | nil => rfl
  | cons e rest ih => rw [bareMembers, List.map_cons, ih]

/-- Siblings do not make a text, and none is lost with them. -/
theorem text?_bare (p : Position) (t : Tree) : Source.text? (t.bare p) = Source.text? t := by
  cases t with
  | object members => rw [bare]; split <;> rfl
  | _ => rfl

/-- A tree is there if its bare form is. -/
theorem present?_bare (p : Position) (t : Tree) : Optional.present? (t.bare p) =
    (Optional.present? t).map (Option.map fun t => t.bare p) := by
  cases t with
  | object members => rw [bare]; split <;> simp [Optional.present?, bare, *, referenceTo]
  | _ => rfl

section

variable {p : Position} (hp : p.isReferable = false) (t : Tree)
include hp

/-- Where no reference may stand an object keeps all its members. -/
theorem bare_object (members : List (Option String × Tree)) :
    (Tree.object members).bare p = .object (bareMembers p members) := by
  have hplain : target? p (.object members) = none := by
    rw [target?, Option.bind_eq_none_iff]
    exact fun d _ => if_neg (by simp [hp])
  rw [bare, hplain]

/-- A map has the same names without siblings, with bare values. -/
theorem entries?_bare : Option.Rel
    (Fields.Alike fun name part part' => part = part'.bare (p.field name))
      (t.bare p).entries? t.entries? := by
  cases t with
  | object members =>
      rw [bare_object hp, bareMembers_eq_map]
      have hall : List.Forall₂ (fun e e' : Option String × Tree =>
          e.1 = e'.1 ∧ e.2 = e'.2.bare (p.member e.1))
          (members.map fun e => (e.1, e.2.bare (p.member e.1))) members := by
        rw [List.forall₂_map_left_iff, List.forall₂_same]
        exact fun _ _ => ⟨rfl, rfl⟩
      refine rel_mapM hall ?_
      rintro ⟨key, part⟩ ⟨_, part'⟩ ⟨rfl, hpart⟩
      cases key with
      | some name => exact .some ⟨rfl, hpart⟩
      | none => exact .none
  | _ => exact .none

/-- An object has the same fields without siblings, with bare values. -/
theorem fields?_bare : Option.Rel
    (Fields.Alike fun name part part' => part = part'.bare (p.field name))
      (Source.fields? p.known (t.bare p)) (Source.fields? p.known t) := by
  have hentries := entries?_bare hp t
  cases t with
  | array items =>
      rw [bare, bareItems_eq_mapIdx]
      refine Fields.ofList?_rel (by simp) fun n name part part' hname hpart hpart' => ?_
      rw [List.getElem?_mapIdx, hpart', Option.map_some, Option.some.injEq] at hpart
      rw [← hpart, Position.item_eq_field hname]
  | object members =>
      rw [bare_object hp] at hentries ⊢
      exact rel_bind hentries fun _ _ hall => Fields.ofEntries?_rel hall
  | _ => exact .none

end

/-- Trees that are the same without the siblings of references cannot be told apart by reading. -/
theorem simulation_bare : Simulation fun p (t t' : Tree) => t.bare p = t'.bare p where
  present {p t t'} h := by
    have hmap : (Optional.present? t).map (Option.map fun t => t.bare p) =
        (Optional.present? t').map (Option.map fun t => t.bare p) := by
      rw [← present?_bare, h, present?_bare]
    exact rel_imp (rel_of_map_eq hmap) fun _ _ => rel_of_map_eq
  text {t t'} h := by rw [← text?_bare .value, h, text?_bare]
  entries {p t t'} h := by
    have hentries := entries?_bare (p := .mapOf p) rfl t
    rw [h] at hentries
    exact Fields.rel_alike_of_images hentries (entries?_bare (p := .mapOf p) rfl t')
  fields {p t t'} hp h := by
    have hfields := fields?_bare hp t
    rw [h] at hfields
    exact Fields.rel_alike_of_images hfields (fields?_bare hp t')
  datum {p t t'} _ h :=
    (datum?_bare p t).symm.trans ((congrArg datum? h).trans (datum?_bare p t'))

end Json.Tree

/-! ### YAML texts -/

namespace Yaml.Part

/-- Parts that differ in siblings of references only, each read as `p` says. Where no reference may
stand they are written alike, level by level: the same scalars, and mappings with the same keys.
Where one may, their typed values are the same without the siblings of references. Aliases stand for
what they lead to. -/
inductive SameBare : OpenApiZod.Position → Part → Part → Prop
  | scalar {p : OpenApiZod.Position} {part part' : Part} {anchor anchor' : Option Nat}
      {tag : Option String} {style : Style} {text : String}
      (hp : p.isReferable = false)
      (h : target? part.anchored part.node = some (.scalar anchor tag style text))
      (h' : target? part'.anchored part'.node = some (.scalar anchor' tag style text)) :
      SameBare p part part'
  | sequence {p : OpenApiZod.Position} {part part' : Part} {anchor anchor' : Option Nat}
      {tag tag' : Option String} {items items' : List Node}
      (hp : p.isReferable = false)
      (h : target? part.anchored part.node = some (.sequence anchor tag items))
      (h' : target? part'.anchored part'.node = some (.sequence anchor' tag' items')) :
      SameBare p part part'
  | mapping {p : OpenApiZod.Position} {part part' : Part} {anchor anchor' : Option Nat}
      {tag tag' : Option String} {entries entries' : List (Node × Node)}
      (hp : p.isReferable = false)
      (h : target? part.anchored part.node = some (.mapping anchor tag entries))
      (h' : target? part'.anchored part'.node = some (.mapping anchor' tag' entries'))
      (hdepth : part.depth = part'.depth) (hlength : entries.length = entries'.length)
      (hkeys : ∀ (n : Nat) (hn : n < entries.length) (hn' : n < entries'.length),
        (part.inner entries[n].1).text? = (part'.inner entries'[n].1).text?)
      (hvalues : part.depth ≠ 0 → ∀ (n : Nat) (hn : n < entries.length)
        (hn' : n < entries'.length) (name : String),
        (part.inner entries[n].1).text? = some name →
          SameBare (p.field name) (part.inner entries[n].2) (part'.inner entries'[n].2)) :
      SameBare p part part'
  | typed {p : OpenApiZod.Position} {part part' : Part} (hp : p.isReferable = true)
      (hpresent : part.present?.map Option.isSome = part'.present?.map Option.isSome)
      (hdatum : part.datum?.map (Datum.bare p) = part'.datum?.map (Datum.bare p)) :
      SameBare p part part'

variable {p : OpenApiZod.Position} {part part' : Part}

/-- A part that is there stands for itself. -/
theorem present?_eq (part : Part) :
    part.present? = none ∨ part.present? = some none ∨ part.present? = some (some part) := by
  unfold present?
  cases target? part.anchored part.node with
  | none => exact .inl rfl
  | some n =>
      cases n with
      | scalar anchor tag style text =>
          cases style with
          | plain =>
              cases tag <;> dsimp only [Option.bind_eq_bind, Option.bind_some] <;> split_ifs <;>
                simp
          | quoted | literal | folded => exact .inr (.inr rfl)
      | _ => exact .inr (.inr rfl)

/-- Parts of which both are there, or neither, are related where they are. -/
theorem present?_rel {P : Part → Part → Prop} (h : P part part')
    (hpresent : part.present?.map Option.isSome = part'.present?.map Option.isSome) :
    Option.Rel (Option.Rel P) part.present? part'.present? := by
  obtain heq | heq | heq := present?_eq part <;> obtain heq' | heq' | heq' := present?_eq part' <;>
    rw [heq, heq'] at hpresent ⊢ <;> simp_all

/-- Of two such parts both are there, or neither is. -/
theorem SameBare.present (h : SameBare p part part') :
    part.present?.map Option.isSome = part'.present?.map Option.isSome := by
  cases h with
  | @scalar _ _ _ _ _ tag style _ _ h h' =>
      rw [present?, present?, h, h']
      cases style with
      | plain =>
          cases tag <;> dsimp only [Option.bind_eq_bind, Option.bind_some] <;> split_ifs <;> rfl
      | _ => rfl
  | sequence hp h h' => simp only [present?, h, h']; rfl
  | mapping hp h h' => simp only [present?, h, h']; rfl
  | typed _ hpresent _ => exact hpresent

/-- Where no reference may stand, parts have the same text or none. -/
theorem SameBare.text (hp : p.isReferable = false) (h : SameBare p part part') :
    part.text? = part'.text? := by
  cases h with
  | scalar hp h h' => simp only [text?, h, h']
  | sequence hp h h' => simp only [text?, h, h']
  | mapping hp h h' => simp only [text?, h, h']
  | typed hp' => exact absurd hp' (by simp [hp])

/-- Where no reference may stand, parts have entries with the same names and related values. -/
theorem SameBare.entries (hp : p.isReferable = false) (h : SameBare p part part') :
    Option.Rel (List.Forall₂ fun e e' => e.1 = e'.1 ∧ SameBare (p.field e.1) e.2 e'.2)
      part.entries? part'.entries? := by
  cases h with
  | @scalar _ _ _ _ _ _ style text _ h h' =>
      have hblank : part.isBlank = part'.isBlank := by
        rw [isBlank, isBlank, h, h']
        by_cases htext : text = ""
        · subst htext
          cases style <;> rfl
        · simp [htext]
      simp only [entries?, mappingEntries?, h, h', hblank]
      split
      · exact .some .nil
      · exact .none
  | sequence hp h h' =>
      simp only [entries?, mappingEntries?, isBlank, h, h']
      exact .none
  | @mapping _ _ _ _ _ _ _ entries entries' _ h h' hdepth hlength hkeys hvalues =>
      simp only [entries?, mappingEntries?, isBlank, h, h', ← hdepth, Bool.false_eq_true, if_false,
        Option.bind_eq_bind, Option.bind_some]
      split
      · exact .none
      · rename_i hdeep
        have hentries : List.Forall₂ (fun e e' : Node × Node =>
            (part.inner e.1).text? = (part'.inner e'.1).text? ∧
              ∀ name, (part.inner e.1).text? = some name →
                SameBare (p.field name) (part.inner e.2) (part'.inner e'.2)) entries entries' :=
          List.forall₂_iff_get.mpr ⟨hlength, fun n hn hn' =>
            ⟨hkeys n hn hn', hvalues hdeep n hn hn'⟩⟩
        refine rel_mapM hentries fun e e' he => ?_
        rw [← he.1]
        cases hname : (part.inner e.1).text? with
        | none => exact .none
        | some name => exact .some ⟨rfl, he.2 name hname⟩
  | typed hp' => exact absurd hp' (by simp [hp])

/-- Mappings with one entry, under one key. -/
theorem SameBare.mapping_singleton {anchor anchor' : Option Nat} {tag tag' : Option String}
    {key key' value value' : Node} {name : String} (hp : p.isReferable = false)
    (h : target? part.anchored part.node = some (.mapping anchor tag [(key, value)]))
    (h' : target? part'.anchored part'.node = some (.mapping anchor' tag' [(key', value')]))
    (hdepth : part.depth = part'.depth) (hkey : (part.inner key).text? = some name)
    (hkey' : (part'.inner key').text? = some name)
    (hvalue : SameBare (p.field name) (part.inner value) (part'.inner value')) :
    SameBare p part part' := by
  refine .mapping hp h h' hdepth rfl (fun n hn _ => ?_) fun _ n hn _ name' hname => ?_ <;>
    obtain rfl : n = 0 := Nat.lt_one_iff.mp hn
  · exact hkey.trans hkey'.symm
  · obtain rfl := Option.some.inj (hkey.symm.trans hname)
    exact hvalue

/-- Such parts cannot be told apart by reading. -/
theorem simulation_sameBare : Simulation SameBare where
  present h := present?_rel h h.present
  text h := h.text rfl
  entries h := h.entries rfl
  fields hp h := rel_bind (h.entries hp) fun _ _ hall => Fields.ofEntries?_rel hall
  datum hp h := by
    cases h with
    | typed _ _ hdatum => exact hdatum
    | scalar hp' | sequence hp' | mapping hp' => exact absurd hp (by simp [hp'])

end Yaml.Part

end OpenApiZod
