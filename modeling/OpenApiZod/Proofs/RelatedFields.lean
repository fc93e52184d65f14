import Mathlib.Data.List.Forall2
import OpenApiZod.Schema.Reading

/-!
# Objects with related fields

Two objects are read alike if their fields have the same names and values that the readers of these
fields cannot tell apart. `Fields.Alike` relates the fields of two objects, and a reader of fields
gives the same for both (`Fields.Alike.read?_eq`, `Fields.Alike.readOptional?_eq`). The fields of
two objects are related if their entries are, or their elements where the objects are written as
lists.
-/

namespace OpenApiZod

/-! ### Related results -/

section

variable {α β γ δ : Type} {R : α → β → Prop} {S : γ → δ → Prop}

/-- Related options are both there, with related values, or both absent. -/
theorem eq_of_rel {x : Option α} {y : Option β} (h : Option.Rel R x y) :
    (∃ a b, x = some a ∧ y = some b ∧ R a b) ∨ x = none ∧ y = none := by
  cases h with
  | some h => exact .inl ⟨_, _, rfl, rfl, h⟩
  | none => exact .inr ⟨rfl, rfl⟩

/-- Options that are related are related by whatever follows. -/
theorem rel_imp {P : α → β → Prop} {x : Option α} {y : Option β} (h : Option.Rel R x y)
    (hRP : ∀ a b, R a b → P a b) : Option.Rel P x y := by
  cases h with
  | some h => exact .some (hRP _ _ h)
  | none => exact .none

/-- Options with the same image are related by having it. -/
theorem rel_of_map_eq {f : α → γ} {g : β → γ} {x : Option α} {y : Option β}
    (h : x.map f = y.map g) : Option.Rel (fun a b => f a = g b) x y := by
  cases x with
  | none =>
      cases y with
      | none => exact .none
      | some b => exact nomatch h
  | some a =>
      cases y with
      | none => exact nomatch h
      | some b => exact .some (Option.some.inj h)

/-- Related options stay related when related functions go on with them. -/
theorem rel_bind {x : Option α} {y : Option β} (h : Option.Rel R x y) {f : α → Option γ}
    {g : β → Option δ} (hfg : ∀ a b, R a b → Option.Rel S (f a) (g b)) :
    Option.Rel S (x.bind f) (y.bind g) := by
  cases h with
  | some h => exact hfg _ _ h
  | none => exact .none

/-- They become the same when the functions agree on related values. -/
theorem bind_eq_of_rel {x : Option α} {y : Option β} (h : Option.Rel R x y) {f : α → Option γ}
    {g : β → Option γ} (hfg : ∀ a b, R a b → f a = g b) : x.bind f = y.bind g := by
  cases h with
  | some h => exact hfg _ _ h
  | none => rfl

/-- Traversals of related lists by related functions are related. -/
theorem rel_mapM {xs : List α} {ys : List β} (h : List.Forall₂ R xs ys) {f : α → Option γ}
    {g : β → Option δ} (hfg : ∀ a b, R a b → Option.Rel S (f a) (g b)) :
    Option.Rel (List.Forall₂ S) (xs.mapM f) (ys.mapM g) := by
  induction h with
  | nil => exact .some .nil
  | cons hab _ ih =>
      rw [List.mapM_cons, List.mapM_cons]
      exact rel_bind (hfg _ _ hab) fun _ _ hcd => rel_bind ih fun _ _ hrest =>
        .some (.cons hcd hrest)

/-- Traversals of related lists are the same when the functions agree on related elements. -/
theorem mapM_eq_of_forall₂ {xs : List α} {ys : List β} (h : List.Forall₂ R xs ys)
    {f : α → Option γ} {g : β → Option γ} (hfg : ∀ a b, R a b → f a = g b) :
    xs.mapM f = ys.mapM g := by
  induction h with
  | nil => rfl
  | cons hab _ ih => rw [List.mapM_cons, List.mapM_cons, hfg _ _ hab, ih]

end

/-! ### Related fields -/

section

variable {ν ν' α : Type} {R : String → ν → ν' → Prop}

/-- Fields with the same names, in the same order, and with values that are related there. -/
def Fields.Alike (R : String → ν → ν' → Prop) (fields : Fields ν) (fields' : Fields ν') : Prop :=
  List.Forall₂ (fun e e' => e.1 = e'.1 ∧ R e.1 e.2 e'.2) fields fields'

namespace Fields.Alike

variable {fields : Fields ν} {fields' : Fields ν'}

/-- Fields that are alike have related values under each name. -/
theorem lookup (h : Alike R fields fields') (name : String) :
    Option.Rel (R name) (fields.lookup name) (fields'.lookup name) := by
  induction h with
  | nil => exact .none
  | @cons e e' _ _ he _ ih =>
      obtain ⟨key, part⟩ := e
      obtain ⟨_, part'⟩ := e'
      obtain ⟨rfl, hpart⟩ := he
      rw [List.lookup_cons, List.lookup_cons]
      cases hname : name == key with
      | true =>
          obtain rfl := beq_iff_eq.mp hname
          exact .some hpart
      | false => exact ih

/-- A field that may not be `null` is read as the same value in both. -/
theorem read?_eq (h : Alike R fields fields') (name : String) (default : α)
    {read : ν → Option α} {read' : ν' → Option α}
    (hread : ∀ part part', R name part part' → read part = read' part') :
    Fields.read? fields name default read = Fields.read? fields' name default read' := by
  obtain ⟨part, part', hfound, hfound', hpart⟩ | ⟨hfound, hfound'⟩ := eq_of_rel (h.lookup name)
  · rw [Fields.read?, Fields.read?, hfound, hfound']
    exact hread part part' hpart
  · rw [Fields.read?, Fields.read?, hfound, hfound']

/-- A field that may be absent is read as the same value in both. -/
theorem readOptional?_eq [Optional ν] [Optional ν'] (h : Alike R fields fields') (name : String)
    {read : ν → Option α} {read' : ν' → Option α}
    (hpresent : ∀ part part', R name part part' →
      Option.Rel (Option.Rel (R name)) (Optional.present? part) (Optional.present? part'))
    (hread : ∀ part part', R name part part' → read part = read' part') :
    Fields.readOptional? fields name read = Fields.readOptional? fields' name read' := by
  obtain ⟨part, part', hfound, hfound', hpart⟩ | ⟨hfound, hfound'⟩ := eq_of_rel (h.lookup name)
  · simp only [Fields.readOptional?, hfound, hfound']
    obtain ⟨_, _, hthere, hthere', hpart⟩ | ⟨hthere, hthere'⟩ :=
      eq_of_rel (hpresent part part' hpart)
    · simp only [hthere, hthere']
      cases hpart with
      | some hpart => exact congrArg (Option.map some) (hread _ _ hpart)
      | none => rfl
    · simp only [hthere, hthere']
  · simp only [Fields.readOptional?, hfound, hfound']

/-- Fields whose values are images are the image of the fields. -/
theorem eq_map {f : String → ν' → ν}
    (h : Alike (fun name part part' => part = f name part') fields fields') :
    fields = fields'.map fun e => (e.1, f e.1 e.2) := by
  induction h with
  | nil => rfl
  | cons he _ ih =>
      rw [List.map_cons, ← ih, ← he.1, ← he.2]

/-- Fields that become the same under their names are alike. -/
theorem of_map_eq {μ : Type} {f : String → ν → μ} {f' : String → ν' → μ}
    (h : fields.map (fun e => (e.1, f e.1 e.2)) = fields'.map fun e => (e.1, f' e.1 e.2)) :
    Alike (fun name part part' => f name part = f' name part') fields fields' := by
  rw [← List.forall₂_eq_eq_eq, List.forall₂_map_left_iff, List.forall₂_map_right_iff] at h
  refine h.imp fun e e' he => ?_
  obtain ⟨hname, hpart⟩ := Prod.mk.inj he
  exact ⟨hname, hname ▸ hpart⟩

end Fields.Alike

/-- Fields with the same images are related by having the same images. -/
theorem Fields.rel_alike_of_images {μ : Type} {f : String → ν → μ} {f' : String → ν' → μ}
    {x : Option (Fields μ)} {y : Option (Fields ν)} {y' : Option (Fields ν')}
    (h : Option.Rel (Alike fun name image part => image = f name part) x y)
    (h' : Option.Rel (Alike fun name image part => image = f' name part) x y') :
    Option.Rel (Alike fun name part part' => f name part = f' name part') y y' := by
  cases h with
  | none => cases h'; exact .none
  | some hall =>
      cases h' with
      | some hall' => exact .some (.of_map_eq (hall.eq_map.symm.trans hall'.eq_map))

/-! ### Fields of objects -/

/-- Related entries are read as fields that are alike. -/
theorem Fields.ofEntries?_rel {known : List String} {entries : List (String × ν)}
    {entries' : List (String × ν')}
    (h : List.Forall₂ (fun e e' => e.1 = e'.1 ∧ R e.1 e.2 e'.2) entries entries') :
    Option.Rel (Alike R) (ofEntries? known entries) (ofEntries? known entries') := by
  have hfound : Alike R (entries.filter (·.1 ∈ known)) (entries'.filter (·.1 ∈ known)) := by
    induction h with
    | nil => exact .nil
    | cons he _ ih =>
        rw [List.filter_cons, List.filter_cons, he.1]
        split
        · exact .cons he ih
        · exact ih
  have hnames : (entries.filter (·.1 ∈ known)).map Prod.fst =
      (entries'.filter (·.1 ∈ known)).map Prod.fst := by
    rw [← List.forall₂_eq_eq_eq, List.forall₂_map_left_iff, List.forall₂_map_right_iff]
    exact hfound.imp fun _ _ he => he.1
  rw [ofEntries?, ofEntries?, hnames]
  split
  · exact .some hfound
  · exact .none

/-- Items that are related at each position are read as fields that are alike. -/
theorem Fields.ofList?_rel {known : List String} {items : List ν} {items' : List ν'}
    (hlength : items.length = items'.length)
    (h : ∀ (n : Nat) (name : String) (part : ν) (part' : ν'), known[n]? = some name →
      items[n]? = some part → items'[n]? = some part' → R name part part') :
    Option.Rel (Alike R) (ofList? known items) (ofList? known items') := by
  have hzip : Alike R (known.zip items) (known.zip items') := by
    induction known generalizing items items' with
    | nil => exact .nil
    | cons name rest ih =>
        match items, items', hlength with
        | [], [], _ => exact .nil
        | part :: items, part' :: items', hlength =>
            refine .cons ⟨rfl, h 0 name part part' rfl rfl rfl⟩ (ih ?_ fun n => h (n + 1))
            simpa using hlength
  rw [ofList?, ofList?, hlength]
  split
  · exact .some hzip
  · exact .none

/-- The fields of an object are its entries whose keys are names. -/
theorem Datum.fieldsOfEntries?_eq (known : List String) (entries : List (Datum × ν)) :
    fieldsOfEntries? known entries =
      (entries.mapM fun e => (fieldName? known e.1).map (·, e.2)).bind fun named =>
        Fields.ofEntries? known (named.filterMap fun e => e.1.map (·, e.2)) :=
  rfl

/-- Entries with the same keys and related values are read as fields that are alike. -/
theorem Datum.fieldsOfEntries?_rel {known : List String} {entries : List (Datum × ν)}
    {entries' : List (Datum × ν')}
    (h : List.Forall₂ (fun e e' => e.1 = e'.1 ∧
      ∀ name, fieldName? known e.1 = some (some name) → R name e.2 e'.2) entries entries') :
    Option.Rel (Fields.Alike R) (fieldsOfEntries? known entries)
      (fieldsOfEntries? known entries') := by
  have hnamed : Option.Rel
      (List.Forall₂ fun e e' => e.1 = e'.1 ∧ ∀ name, e.1 = some name → R name e.2 e'.2)
      (entries.mapM fun e => (fieldName? known e.1).map (·, e.2))
      (entries'.mapM fun e => (fieldName? known e.1).map (·, e.2)) := by
    refine rel_mapM h fun e e' he => ?_
    rw [← he.1]
    cases hname : fieldName? known e.1 with
    | none => exact .none
    | some name => exact .some ⟨rfl, fun _ heq => he.2 _ (hname.trans (congrArg some heq))⟩
  rw [fieldsOfEntries?_eq, fieldsOfEntries?_eq]
  refine rel_bind hnamed fun named named' hall => Fields.ofEntries?_rel ?_
  refine List.rel_filterMap (fun e e' he => ?_) hall
  rw [← he.1]
  cases hname : e.1 with
  | none => exact .none
  | some name => exact .some ⟨rfl, he.2 name hname⟩

/-- Maps with the same names and related values are read as the same. -/
theorem Source.readEntries?_eq [Source ν] [Source ν'] {P : ν → ν' → Prop} {part : ν} {part' : ν'}
    (h : Option.Rel (List.Forall₂ fun e e' => e.1 = e'.1 ∧ P e.2 e'.2)
      (entries? part) (entries? part'))
    {read : ν → Option α} {read' : ν' → Option α}
    (hread : ∀ part part', P part part' → read part = read' part') :
    readEntries? read part = readEntries? read' part' := by
  refine bind_eq_of_rel h fun entries entries' hall => mapM_eq_of_forall₂ hall ?_
  rintro ⟨key, value⟩ ⟨_, value'⟩ ⟨rfl, hvalue⟩
  exact congrArg (Option.map _) (hread value value' hvalue)

end

end OpenApiZod
