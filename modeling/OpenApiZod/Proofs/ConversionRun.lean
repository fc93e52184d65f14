import Mathlib.Data.List.Perm.Subperm
import OpenApiZod.Proofs.Conversion
import OpenApiZod.Proofs.Tables

/-!
# Conversion step by step

`Scope.convert` says what becomes of a shape, and `Session.convert` adds up what is recorded and
deferred for it. This is how a conversion gets there. `Session.convertWithin` goes through a shape
from its first reference to its last. It records and defers a reference where it meets it; to expand
a component, it puts the component's name at the end of the session's path, converts the component's
shape, and takes the name off again. It is told how many components may be expanded inside each
other, and gives no answer where that is not enough.

`Branch` lists the names that are put on the path on one way down. `Answers` says of a part of a
conversion when it gives an answer, which one, and what it notes in the session; parts that follow
each other note their uses one after the other (`Answers.bind`), and an expansion leaves the path
as it was (`answers_expand`). So a conversion gives its answer exactly if no branch is longer than
allowed (`answers_convertWithin`).

## Main results

* `convertWithin_of_size_le`: branches are made of different components that are not on the first
  path, so the number of components is always depth enough.
* `convertWithin_frame`: a conversion restores the path and adds to the targets of its owner only.
-/

namespace OpenApiZod

/-! ### The run of a conversion -/

namespace Session

/-- A part of a conversion, which may end without an answer. -/
abbrev Run (α : Type) : Type := StateT Session Option α

/-- Records that `owner` refers to `target`, except inline and without an owner. -/
def record (s : Session) (owner : String) (inline : Bool) (target : String) : Session :=
  if inline || owner.isEmpty then s else { s with graph := s.graph.record owner target }

/-- Remembers a deferred target. -/
def defer (s : Session) (target : String) : Session :=
  { s with deferred := appendNew s.deferred target }

/-- Puts a name at the end of the path. -/
def push (s : Session) (name : String) : Session :=
  { s with path := s.path ++ [name] }

/-- Takes the last name off the path. -/
def pop (s : Session) : Session :=
  { s with path := s.path.dropLast }

/-- Converts a reference; `expand` converts the shape of a component that is put in its place. -/
def runReference (expand : String → Shape → Run Validator) (owner : String) (inline : Bool)
    (target : String) : Run Validator := do
  let s ← get
  if (!inline && s.scope.cycles.any (·.shared owner target)) || target ∈ s.path then
    modify (·.defer target)
    modify fun s => if target ≠ owner then s.record owner inline target else s
    return .deferred target
  else
    match if inline then s.scope.components.get? target else none with
    | some component =>
      modify (·.push target)
      let v ← expand target component.shape
      modify pop
      return v
    | none =>
      modify (·.record owner inline target)
      return .reference target

section Traversal

open Validator

variable (onReference : String → Run Validator)

mutual

/-- Converts a shape, given the conversion of references. -/
def runShape : Shape → Run Validator
  | .reference target => onReference target
  | .composition .allOf members => return intersectionOf (← runMembers members)
  | .composition .oneOf members => return unionOf (← runMembers members)
  | .composition .anyOf members => return unionOf (← runMembers members)
  | .string rules => return ofString rules
  | .number rules => return ofNumber rules
  | .boolean => return .boolean
  | .null => return .null
  | .literal values => return ofLiterals values
  | .array items minItems maxItems => return .array (← runItems items) minItems maxItems
  | .object [] _ extra => do
    let extra ← runExtra extra
    return match extra with
      | .typed values => .record (some values)
      | _ => .record none
  | .object (property :: properties) required extra => do
    let fields ← runProperties required (property :: properties)
    return .object fields (← runExtra extra)
  | .nullable inner => return .nullable (← runShape inner)
  | .unknown => return .any

/-- Converts members, one after the other. -/
def runMembers : List Shape → Run (List Validator)
  | [] => return []
  | s :: rest => do
    let v ← runShape s
    return v :: (← runMembers rest)

/-- Converts the items of an array. -/
def runItems : Option Shape → Run Validator
  | none => return .any
  | some s => runShape s

/-- Converts properties, one after the other. -/
def runProperties (required : List String) :
    List (String × Shape) → Run (List (String × Validator))
  | [] => return []
  | (name, s) :: rest => do
    let v ← runShape s
    return (name, ofProperty required name v) :: (← runProperties required rest)

/-- Converts the treatment of properties that are not listed. -/
def runExtra : Extra Shape → Run (Extra Validator)
  | .unspecified => return .unspecified
  | .forbidden => return .forbidden
  | .unrestricted => return .unrestricted
  | .typed values => return .typed (← runShape values)

end

end Traversal

/-- Converts a shape, if at most `depth` components have to be expanded inside each other. -/
def convertWithin : Nat → String → Bool → Shape → Run Validator
  | 0, owner, inline => runShape (runReference (fun _ _ => failure) owner inline)
  | depth + 1, owner, inline =>
    runShape (runReference (fun target => convertWithin depth target true) owner inline)

/-! ### Notes in the session -/

/-- The session in which one more use of another shape is noted. -/
def note (owner : String) (inline : Bool) (s : Session) (use : Validator.Use) : Session :=
  if use.deferred then
    if use.target ≠ owner then (s.defer use.target).record owner inline use.target
    else s.defer use.target
  else s.record owner inline use.target

/-- The session in which uses are noted, one after the other. -/
def noteAll (owner : String) (inline : Bool) (s : Session) (uses : List Validator.Use) : Session :=
  uses.foldl (note owner inline) s

section Notes

variable (owner : String) (inline : Bool) (s : Session)

/-- All notes together: the targets that are recorded and those that are deferred. -/
theorem noteAll_eq (uses : List Validator.Use) :
    noteAll owner inline s uses = { s with
      graph := s.graph.recordAll owner (if inline || owner.isEmpty then []
        else (uses.filter fun use => !(use.deferred && use.target == owner)).map (·.target))
      deferred := extendNew s.deferred ((uses.filter (·.deferred)).map (·.target)) } := by
  induction uses generalizing s with
  | nil => cases h : inline || owner.isEmpty <;> rfl
  | cons use rest ih =>
      obtain ⟨target, deferred⟩ := use
      rw [noteAll, List.foldl_cons, ← noteAll, ih]
      cases h : inline || owner.isEmpty <;> cases deferred <;> by_cases htarget : target = owner <;>
        simp [note, record, defer, h, htarget, ReferenceGraph.recordAll, extendNew]

/-- Noting uses does not move along the path. -/
@[simp] theorem path_noteAll (uses : List Validator.Use) :
    (noteAll owner inline s uses).path = s.path := by
  rw [noteAll_eq]

/-- Nor does it change the scope. -/
@[simp] theorem scope_noteAll (uses : List Validator.Use) :
    (noteAll owner inline s uses).scope = s.scope := by
  rw [noteAll_eq]

/-- Uses may be noted in two turns. -/
theorem noteAll_append (uses uses' : List Validator.Use) :
    noteAll owner inline s (uses ++ uses') =
      noteAll owner inline (noteAll owner inline s uses) uses' :=
  List.foldl_append

/-- Inline, only deferred uses leave a note, whoever the owner is. -/
theorem noteAll_inline (other : String) (uses : List Validator.Use) :
    noteAll other true s uses = noteAll owner true s uses := by
  have hnote : note other true = note owner true := by
    funext s use
    simp [note, record]
  rw [noteAll, noteAll, hnote]

/-- What is noted for an expanded component is noted where the reference to it stands. -/
theorem pop_noteAll_push (name : String) (uses : List Validator.Use) :
    (noteAll name true (s.push name) uses).pop = noteAll owner true s uses := by
  rw [noteAll_inline owner, noteAll_eq, noteAll_eq, push, pop, List.dropLast_concat]

/-- A conversion notes the uses in its validator. -/
theorem noteAll_uses_convert (shape : Shape) :
    (s.scope.convert s.path owner inline shape,
      noteAll owner inline s (s.scope.convert s.path owner inline shape).uses) =
      s.convert owner inline (some shape) := by
  rw [noteAll_eq]
  rfl

end Notes

end Session

/-! ### Answers -/

namespace Session

/-- From the sessions that have the scope and stand at the path, a part of a conversion gives an
answer exactly if `ok`. The answer is `value`, and `uses` are noted. -/
structure Answers (scope : Scope) (path : List String) (owner : String) (inline : Bool) {α : Type}
    (x : Run α) (ok : Prop) (uses : List Validator.Use) (value : α) : Prop where
  answer : ok → ∀ s : Session, s.scope = scope → s.path = path →
    x s = some (value, noteAll owner inline s uses)
  stuck : ¬ ok → ∀ s : Session, s.scope = scope → s.path = path → x s = none

/-- What becomes of references: one to a target gives an answer exactly if `ok target`. -/
def AnswersReferences (scope : Scope) (path : List String) (owner : String) (inline : Bool)
    (onReference : String → Run Validator) (ok : String → Prop) (f : String → Validator) : Prop :=
  ∀ target, Answers scope path owner inline (onReference target) (ok target)
    (f target).uses (f target)

section Answers

variable {scope : Scope} {path : List String} {owner : String} {inline : Bool}

/-- The condition and the uses may be written in another way. -/
theorem Answers.congr {α : Type} {x : Run α} {ok ok' : Prop} {uses uses' : List Validator.Use}
    {value : α} (h : Answers scope path owner inline x ok uses value) (hok : ok ↔ ok')
    (huses : uses = uses') : Answers scope path owner inline x ok' uses' value := by
  obtain rfl := propext hok
  exact huses ▸ h

/-- To answer at once notes nothing. -/
theorem answers_pure {α : Type} (value : α) :
    Answers scope path owner inline (pure value) True [] value where
  answer _ _ _ _ := rfl
  stuck h := absurd trivial h

/-- Where nothing is referred to, nothing keeps the answer back and nothing is noted. -/
theorem answers_leaf {α : Type} (ok : String → Prop) (value : α) :
    Answers scope path owner inline (pure value) (∀ target ∈ ([] : List String), ok target) []
      value :=
  (answers_pure value).congr (by simp) rfl

/-- Two parts answer if both do, and note what the first notes and then what the second does. -/
theorem Answers.bind {α β : Type} {x : Run α} {f : α → Run β} {ok ok' : Prop}
    {uses uses' : List Validator.Use} {a : α} {b : β}
    (hx : Answers scope path owner inline x ok uses a)
    (hf : Answers scope path owner inline (f a) ok' uses' b) :
    Answers scope path owner inline (x >>= f) (ok ∧ ok') (uses ++ uses') b where
  answer h s hscope hpath := by
    show (x s >>= fun p => f p.1 p.2) = _
    rw [hx.answer h.1 s hscope hpath, noteAll_append]
    exact hf.answer h.2 _ ((scope_noteAll ..).trans hscope) ((path_noteAll ..).trans hpath)
  stuck h s hscope hpath := by
    show (x s >>= fun p => f p.1 p.2) = none
    by_cases hok : ok
    · rw [hx.answer hok s hscope hpath]
      exact hf.stuck (fun hok' => h ⟨hok, hok'⟩) _ ((scope_noteAll ..).trans hscope)
        ((path_noteAll ..).trans hpath)
    · rw [hx.stuck hok s hscope hpath]
      rfl

/-- An answer may be changed without noting anything. -/
theorem Answers.map {α β : Type} {x : Run α} {ok : Prop} {uses : List Validator.Use} {a : α}
    (hx : Answers scope path owner inline x ok uses a) (f : α → β) :
    Answers scope path owner inline (do return f (← x)) ok uses (f a) :=
  (hx.bind (answers_pure (f a))).congr (and_iff_left trivial) (List.append_nil uses)

end Answers

/-! ### Going through a shape -/

section Traversal

open Validator

variable {scope : Scope} {path : List String} {owner : String} {inline : Bool}
  {onReference : String → Run Validator} {ok : String → Prop} {f : String → Validator}

mutual

/-- Converting a shape gives an answer if all its references do, and puts the answers in their
places. -/
theorem answers_runShape (h : AnswersReferences scope path owner inline onReference ok f) :
    ∀ shape : Shape,
    Answers scope path owner inline (runShape onReference shape)
      (∀ target ∈ shape.references, ok target) (ofShape f shape).uses (ofShape f shape)
  | .reference target => by
      rw [runShape, ofShape, Shape.references]
      exact (h target).congr List.forall_mem_singleton.symm rfl
  | .composition .allOf members => by
      rw [runShape, ofShape, Shape.references, gathers_uses.gather_intersectionOf]
      exact (answers_runMembers h members).map intersectionOf
  | .composition .oneOf members =>
      ((answers_runMembers h members).map unionOf).congr Iff.rfl
        (gathers_uses.gather_unionOf _).symm
  | .composition .anyOf members =>
      ((answers_runMembers h members).map unionOf).congr Iff.rfl
        (gathers_uses.gather_unionOf _).symm
  | .string rules =>
      (answers_leaf ok (ofString rules)).congr Iff.rfl (uses_ofString rules).symm
  | .number rules =>
      (answers_leaf ok (ofNumber rules)).congr Iff.rfl
        (gathers_uses.gather_ofNumber rules).symm
  | .boolean => answers_leaf ok Validator.boolean
  | .null => answers_leaf ok Validator.null
  | .literal values =>
      (answers_leaf ok (ofLiterals values)).congr Iff.rfl
        (gathers_uses.gather_ofLiterals values).symm
  | .array none minItems maxItems => answers_leaf ok (Validator.array .any minItems maxItems)
  | .array (some items) minItems maxItems => by
      rw [runShape, ofShape, Shape.references, uses, runItems, ofItems]
      exact (answers_runShape h items).map fun v => Validator.array v minItems maxItems
  | .object [] required extra => by
      have hextra := (answers_runExtra h extra).map fun extra => match extra with
        | .typed values => Validator.record (some values)
        | _ => Validator.record none
      refine hextra.congr ?_ ?_
      · rw [references_object, Shape.referencesOfProperties, List.nil_append]
      · cases extra <;> rfl
  | .object (property :: properties) required extra => by
      rw [references_object, List.forall_mem_append, runShape, ofShape, uses]
      exact (answers_runProperties h required (property :: properties)).bind
        ((answers_runExtra h extra).map (Validator.object _))
  | .nullable inner => by
      rw [runShape, ofShape, Shape.references, uses]
      exact (answers_runShape h inner).map Validator.nullable
  | .unknown => answers_leaf ok Validator.any

/-- Members are converted if all their references are. -/
theorem answers_runMembers (h : AnswersReferences scope path owner inline onReference ok f) :
    ∀ members : List Shape,
    Answers scope path owner inline (runMembers onReference members)
      (∀ target ∈ Shape.referencesOfMembers members, ok target)
      (usesOfMembers (ofMembers f members)) (ofMembers f members)
  | [] => answers_leaf ok _
  | s :: rest => by
      rw [runMembers, ofMembers, usesOfMembers, Shape.referencesOfMembers, List.forall_mem_append]
      exact (answers_runShape h s).bind ((answers_runMembers h rest).map (ofShape f s :: ·))

/-- So are properties. -/
theorem answers_runProperties (h : AnswersReferences scope path owner inline onReference ok f)
    (required : List String) : ∀ properties : List (String × Shape),
      Answers scope path owner inline (runProperties onReference required properties)
        (∀ target ∈ Shape.referencesOfProperties properties, ok target)
        (usesOfFields (ofProperties f required properties)) (ofProperties f required properties)
  | [] => answers_leaf ok _
  | (name, s) :: rest => by
      rw [runProperties, ofProperties, usesOfFields, gathers_uses.gather_ofProperty,
        Shape.referencesOfProperties, List.forall_mem_append]
      exact (answers_runShape h s).bind ((answers_runProperties h required rest).map
        ((name, ofProperty required name (ofShape f s)) :: ·))

/-- So is the treatment of other properties. -/
theorem answers_runExtra (h : AnswersReferences scope path owner inline onReference ok f) :
    ∀ extra : Extra Shape,
    Answers scope path owner inline (runExtra onReference extra)
      (∀ target ∈ referencesOfExtra extra, ok target)
      (usesOfExtra (ofExtra f extra)) (ofExtra f extra)
  | .unspecified => answers_leaf ok _
  | .forbidden => answers_leaf ok _
  | .unrestricted => answers_leaf ok _
  | .typed values => by
      rw [runExtra, ofExtra, usesOfExtra, referencesOfExtra]
      exact (answers_runShape h values).map Extra.typed

end

end Traversal

end Session

/-! ### Expansions -/

namespace Scope

/-- The names that an inline conversion puts on the path, one inside the other, on one way down from
a shape: each is a reference of the shape before it, is not on the path, and names a component. -/
inductive Branch (components : ComponentTable) :
    Bool → List String → Shape → List String → Prop
  | stop {inline : Bool} {path : List String} {shape : Shape} :
      Branch components inline path shape []
  | expand {path : List String} {shape : Shape} {target : String} {component : Component}
      {names : List String} (hreference : target ∈ shape.references) (hpath : target ∉ path)
      (hcomponent : components.get? target = some component)
      (hrest : Branch components true (path ++ [target]) component.shape names) :
      Branch components true path shape (target :: names)

/-- The names of a branch are different components that the path did not hold before. -/
theorem Branch.fresh {components : ComponentTable} {inline : Bool} {path names : List String}
    {shape : Shape} (h : Branch components inline path shape names) :
    names.Nodup ∧ ∀ name ∈ names, name ∈ components.keys ∧ name ∉ path := by
  induction h with
  | stop => exact ⟨List.nodup_nil, nofun⟩
  | expand _ hpath hcomponent _ ih =>
      obtain ⟨hnodup, hfresh⟩ := ih
      refine ⟨List.nodup_cons.mpr ⟨fun hmem => ?_, hnodup⟩, fun name hname => ?_⟩
      · exact (hfresh _ hmem).2 (List.mem_append_right _ (List.mem_singleton_self _))
      · rcases List.mem_cons.mp hname with rfl | hname
        · exact ⟨Table.mem_keys_of_get? hcomponent, hpath⟩
        · exact ⟨(hfresh name hname).1, fun hmem =>
            (hfresh name hname).2 (List.mem_append_left _ hmem)⟩

/-- So no branch is longer than there are components. -/
theorem Branch.length_le {components : ComponentTable} {inline : Bool} {path names : List String}
    {shape : Shape} (h : Branch components inline path shape names) :
    names.length ≤ components.size := by
  obtain ⟨hnodup, hfresh⟩ := h.fresh
  have hle := (hnodup.subperm fun name hname => (hfresh name hname).1).length_le
  rwa [Table.keys, List.length_map] at hle

/-- A branch from a reference either stops there or expands the target. -/
theorem branch_reference_iff {components : ComponentTable} {inline : Bool} {path : List String}
    {target : String} {names : List String} :
    Branch components inline path (.reference target) names ↔
      names = [] ∨ inline = true ∧ target ∉ path ∧ ∃ component rest,
        components.get? target = some component ∧ names = target :: rest ∧
          Branch components true (path ++ [target]) component.shape rest := by
  constructor
  · rintro (_ | ⟨hreference, hpath, hcomponent, hrest⟩)
    · exact Or.inl rfl
    · rw [Shape.references, List.mem_singleton] at hreference
      subst hreference
      exact Or.inr ⟨rfl, hpath, _, _, hcomponent, rfl, hrest⟩
  · rintro (rfl | ⟨rfl, hpath, component, rest, hcomponent, rfl, hrest⟩)
    · exact .stop
    · refine .expand ?_ hpath hcomponent hrest
      rw [Shape.references]
      exact List.mem_singleton_self _

/-- A branch that goes on begins with one of the references. -/
theorem branch_iff_reference {components : ComponentTable} {inline : Bool}
    {path names : List String} {shape : Shape} :
    Branch components inline path shape names ↔
      names = [] ∨ ∃ target ∈ shape.references,
        Branch components inline path (.reference target) names := by
  constructor
  · rintro (_ | ⟨hreference, hpath, hcomponent, hrest⟩)
    · exact Or.inl rfl
    · exact Or.inr ⟨_, hreference, branch_reference_iff.mpr
        (Or.inr ⟨rfl, hpath, _, _, hcomponent, rfl, hrest⟩)⟩
  · rintro (rfl | ⟨target, htarget, h⟩)
    · exact .stop
    · rcases branch_reference_iff.mp h with
        rfl | ⟨rfl, hpath, component, rest, hcomponent, rfl, hrest⟩
      · exact .stop
      · exact .expand htarget hpath hcomponent hrest

/-- Whether all branches from a shape fit into a depth. -/
def Fits (components : ComponentTable) (inline : Bool) (path : List String) (depth : Nat)
    (shape : Shape) : Prop :=
  ∀ names, Branch components inline path shape names → names.length ≤ depth

section Fits

variable {components : ComponentTable} {inline : Bool} {path : List String} {depth : Nat}
  {shape : Shape} {target : String} {component : Component}

/-- A shape fits if its references do. -/
theorem fits_iff : Fits components inline path depth shape ↔
    ∀ target ∈ shape.references, Fits components inline path depth (.reference target) := by
  constructor
  · intro h target htarget names hnames
    exact h names (branch_iff_reference.mpr (Or.inr ⟨target, htarget, hnames⟩))
  · intro h names hnames
    rcases branch_iff_reference.mp hnames with rfl | ⟨target, htarget, hnames⟩
    · exact Nat.zero_le depth
    · exact h target htarget names hnames

/-- A reference that is not expanded fits into every depth. -/
theorem fits_reference (h : inline = true → target ∉ path → components.get? target = none) :
    Fits components inline path depth (.reference target) := by
  intro names hnames
  rcases branch_reference_iff.mp hnames with rfl | ⟨hinline, hpath, _, _, hcomponent, -⟩
  · exact Nat.zero_le depth
  · exact absurd ((h hinline hpath).symm.trans hcomponent) (by simp)

/-- An expansion needs one more than the branches of the component do. -/
theorem fits_expand_iff (hpath : target ∉ path)
    (hcomponent : components.get? target = some component) :
    Fits components true path (depth + 1) (.reference target) ↔
      Fits components true (path ++ [target]) depth component.shape := by
  constructor
  · intro h names hnames
    exact Nat.le_of_succ_le_succ (h (target :: names) (branch_reference_iff.mpr
      (Or.inr ⟨rfl, hpath, component, names, hcomponent, rfl, hnames⟩)))
  · intro h names hnames
    rcases branch_reference_iff.mp hnames with rfl | ⟨-, -, _, rest, hfound, rfl, hrest⟩
    · exact Nat.zero_le _
    · obtain rfl := Option.some.inj (hcomponent.symm.trans hfound)
      exact Nat.succ_le_succ (h rest hrest)

/-- Without any depth left no component can be expanded. -/
theorem not_fits_zero (hpath : target ∉ path)
    (hcomponent : components.get? target = some component) :
    ¬ Fits components true path 0 (.reference target) := fun h =>
  absurd (h [target] (branch_reference_iff.mpr
    (Or.inr ⟨rfl, hpath, component, [], hcomponent, rfl, .stop⟩))) (by simp)

end Fits

end Scope

namespace Session

open Scope

/-- A reference is deferred, expanded or written, and its use is noted. -/
theorem runReference_eq (expand : String → Shape → Run Validator) (owner : String) (inline : Bool)
    (target : String) (s : Session) :
    runReference expand owner inline target s =
      if (!inline && s.scope.cycles.any (·.shared owner target)) || target ∈ s.path then
        some (.deferred target, note owner inline s ⟨target, true⟩)
      else
        match if inline then s.scope.components.get? target else none with
        | some component =>
          (expand target component.shape (s.push target)).map fun p => (p.1, p.2.pop)
        | none => some (.reference target, note owner inline s ⟨target, false⟩) := by
  rw [runReference]
  show (ite _ _ _ : Run Validator) s = _
  split
  · rfl
  · generalize (if inline then s.scope.components.get? target else none) = found
    cases found with
    | none => rfl
    | some component =>
        show (expand target component.shape (s.push target)).bind _ =
          (expand target component.shape (s.push target)).map _
        cases expand target component.shape (s.push target) <;> rfl

section Reference

variable {scope : Scope} {path : List String} {owner : String} {inline : Bool} {target : String}
  {expand : String → Shape → Run Validator}

/-- A reference that is deferred gets its answer at once. -/
theorem answers_deferred
    (h : (!inline && scope.cycles.any (·.shared owner target)) = true ∨ target ∈ path) :
    Answers scope path owner inline (runReference expand owner inline target) True [⟨target, true⟩]
      (.deferred target) where
  answer _ s hscope hpath := by
    rw [runReference_eq, hscope, hpath, if_pos (by simpa using h)]
    rfl
  stuck h := absurd trivial h

/-- So does one that stays bare. -/
theorem answers_bare (hpath : target ∉ path)
    (hcycle : (!inline && scope.cycles.any (·.shared owner target)) = false)
    (hbare : (if inline then scope.components.get? target else none) = none) :
    Answers scope path owner inline (runReference expand owner inline target) True
      [⟨target, false⟩] (.reference target) where
  answer _ s hscope hat := by
    rw [runReference_eq, hscope, hat, if_neg (by simp [hcycle, hpath]), hbare]
    rfl
  stuck h := absurd trivial h

/-- To expand a component leaves the path as it was. -/
theorem answers_expand {component : Component} {ok : Prop} {uses : List Validator.Use}
    {v : Validator} (hpath : target ∉ path)
    (hcomponent : scope.components.get? target = some component)
    (h : Answers scope (path ++ [target]) target true (expand target component.shape) ok uses v) :
    Answers scope path owner true (runReference expand owner true target) ok uses v where
  answer hok s hscope hat := by
    rw [runReference_eq, hscope, hat, if_neg (by simpa using hpath), if_pos rfl, hcomponent]
    have hrun := h.answer hok (s.push target) hscope (by rw [push, hat])
    simp only [hrun, Option.map_some, pop_noteAll_push owner]
  stuck hok s hscope hat := by
    rw [runReference_eq, hscope, hat, if_neg (by simpa using hpath), if_pos rfl, hcomponent]
    have hrun := h.stuck hok (s.push target) hscope (by rw [push, hat])
    simp only [hrun, Option.map_none]

end Reference

section Conversion

variable {scope : Scope} {path : List String} {owner : String} {inline : Bool} {depth : Nat}

/-- What becomes of the references, if what becomes of the components in their places is known. -/
theorem answers_runReference {expand : String → Shape → Run Validator}
    (h : ∀ target component, target ∉ path → scope.components.get? target = some component →
      Answers scope (path ++ [target]) target true (expand target component.shape)
        (Fits scope.components true path depth (.reference target))
        (scope.convert (path ++ [target]) target true component.shape).uses
        (scope.convert (path ++ [target]) target true component.shape)) (target : String) :
    Answers scope path owner inline (runReference expand owner inline target)
      (Fits scope.components inline path depth (.reference target))
      (scope.convert path owner inline (.reference target)).uses
      (scope.convert path owner inline (.reference target)) := by
  by_cases hdeferred :
      (!inline && scope.cycles.any (·.shared owner target)) = true ∨ target ∈ path
  · rw [scope.convert_reference_deferred owner hdeferred, Validator.uses]
    refine (answers_deferred hdeferred).congr (iff_of_true trivial (fits_reference ?_)) rfl
    rintro rfl hpath
    simp [hpath] at hdeferred
  rw [not_or, Bool.not_eq_true] at hdeferred
  obtain ⟨hcycle, hpath⟩ := hdeferred
  cases hfound : (if inline then scope.components.get? target else none) with
  | none =>
      rw [scope.convert_reference_bare owner hpath hcycle hfound, Validator.uses]
      refine (answers_bare hpath hcycle hfound).congr (iff_of_true trivial (fits_reference ?_)) rfl
      rintro rfl -
      rwa [if_pos rfl] at hfound
  | some component =>
      cases inline with
      | false => exact absurd hfound (by simp)
      | true =>
          rw [if_pos rfl] at hfound
          rw [scope.convert_reference_component owner hpath hfound]
          exact answers_expand hpath hfound (h target component hpath hfound)

/-- A conversion gives its answer exactly if all branches fit into its depth. -/
theorem answers_convertWithin (shape : Shape) :
    Answers scope path owner inline (convertWithin depth owner inline shape)
      (Fits scope.components inline path depth shape)
      (scope.convert path owner inline shape).uses (scope.convert path owner inline shape) := by
  -- Both the run and the validator are made of what becomes of the references, so it is enough to
  -- know what becomes of components with one expansion less.
  induction depth generalizing path owner inline shape with
  | zero =>
      rw [convertWithin, scope.convert_eq_ofShape, fits_iff]
      refine answers_runShape (answers_runReference
        fun target component hpath hcomponent => ?_) shape
      exact ⟨fun hfits => absurd hfits (not_fits_zero hpath hcomponent), fun _ _ _ _ => rfl⟩
  | succ depth ih =>
      rw [convertWithin, scope.convert_eq_ofShape, fits_iff]
      refine answers_runShape (answers_runReference
        fun target component hpath hcomponent => ?_) shape
      exact (ih component.shape).congr (fits_expand_iff hpath hcomponent).symm rfl

end Conversion

/-- **Conversion ends.** On every way down, the names that a conversion puts on the path are
different components that were not on the path at first, so there are at most as many as there are
components. A conversion gives its answer exactly if it is allowed to go as deep as all these ways
do; so with as many expansions inside each other as there are components, it always does. -/
theorem convertWithin_of_size_le (s : Session) (owner : String) (inline : Bool) (shape : Shape) :
    let components := s.scope.components
    (∀ names, Branch components inline s.path shape names →
      names.Nodup ∧ (∀ name ∈ names, name ∈ components.keys ∧ name ∉ s.path) ∧
        names.length ≤ components.size) ∧
      (∀ depth, (convertWithin depth owner inline shape s).isSome = true ↔
        ∀ names, Branch components inline s.path shape names → names.length ≤ depth) ∧
      ∀ depth, components.size ≤ depth →
        convertWithin depth owner inline shape s = some (s.convert owner inline (some shape)) := by
  intro components
  have hrun (depth : Nat) : Answers s.scope s.path owner inline
      (convertWithin depth owner inline shape)
      (Fits components inline s.path depth shape)
      (s.scope.convert s.path owner inline shape).uses
      (s.scope.convert s.path owner inline shape) :=
    answers_convertWithin shape
  refine ⟨fun names h => ⟨h.fresh.1, h.fresh.2, h.length_le⟩, fun depth => ⟨fun hsome => ?_,
    fun hfits => ?_⟩, fun depth hdepth => ?_⟩
  · by_contra hfits
    rw [(hrun depth).stuck hfits s rfl rfl] at hsome
    exact absurd hsome (by simp)
  · rw [(hrun depth).answer hfits s rfl rfl]
    rfl
  · rw [(hrun depth).answer (fun _ h => Nat.le_trans h.length_le hdepth) s rfl rfl,
      noteAll_uses_convert]

/-- **What a conversion changes.** A conversion leaves the path as it found it. Inline or without an
owner it records nothing. Otherwise it adds to the targets of its owner, and to no others, the names
that the shape refers to, each where it first comes; the owner itself is left out exactly if it is
on the path or shares a cycle with itself. -/
theorem convertWithin_frame (s : Session) (owner : String) (inline : Bool) (shape : Shape)
    {depth : Nat} (hdepth : s.scope.components.size ≤ depth) :
    ∃ v s', convertWithin depth owner inline shape s = some (v, s') ∧
      s.convert owner inline (some shape) = (v, s') ∧ s'.path = s.path ∧ s'.scope = s.scope ∧
      (inline = true ∨ owner = "" → s'.graph = s.graph) ∧
      (inline = false → owner ≠ "" →
        let recorded := (distinct shape.references).filter fun target =>
          ¬ (target = owner ∧ s.scope.Defers s.path owner owner)
        (∀ name, s'.graph.dependencies name =
          if name = owner then extendNew (s.graph.dependencies owner) recorded
          else s.graph.dependencies name) ∧
        s'.graph.edges.keys =
          if recorded = [] then s.graph.edges.keys else appendNew s.graph.edges.keys owner) := by
  refine ⟨_, _, (s.convertWithin_of_size_le owner inline shape).2.2 depth hdepth, rfl, rfl, rfl,
    fun hnone => ?_, ?_⟩
  · have hnothing : (inline || owner.isEmpty) = true := by simpa using hnone
    show s.graph.recordAll owner (recordedTargets owner inline _) = s.graph
    rw [recordedTargets, if_pos hnothing]
    rfl
  · rintro rfl howner
    intro recorded
    have hwritten := recordedTargets_named s.scope s.path howner shape
    have hrecorded : distinct (recordedTargets owner false
        (s.scope.convert s.path owner false shape)) = recorded := by
      rw [hwritten]
      exact distinct_filter _ _
    refine ⟨fun name => ?_, ?_⟩
    · rw [← hrecorded, extendNew_distinct]
      exact s.graph.dependencies_recordAll owner _ name
    · simp only [← hrecorded, distinct_eq_nil_iff]
      exact s.graph.keys_recordAll owner _

/-- `A` refers to itself, to `B` on a common cycle, to a missing shape, and to `B` once more. What
it refers to comes after the target it has, itself left out, and nothing else changes. -/
theorem convertWithin_frame_cycle :
    let shape : Shape := .object [("self", .reference "A"), ("b", .reference "B"),
      ("ghost", .reference "Ghost"), ("again", .reference "B")] [] .unspecified
    let s : Session :=
      { scope :=
          { components := .ofList [("A", ⟨"A", none, shape⟩), ("B", ⟨"B", none, .reference "A"⟩)]
            cycles := some (CycleGroups.empty.push ["A", "B"]) }
        path := ["X"]
        graph := (ReferenceGraph.empty.record "Q" "A").record "A" "Z"
        deferred := [] }
    ∃ v s', convertWithin 2 "A" false shape s = some (v, s') ∧ s'.path = ["X"] ∧
      s'.graph.dependencies "A" = ["Z", "B", "Ghost"] ∧ s'.graph.dependencies "Q" = ["A"] ∧
      s'.graph.edges.keys = ["Q", "A"] := by
  intro shape s
  have hdepth : s.scope.components.size ≤ 2 := by decide
  obtain ⟨v, s', hrun, -, hpath, -, -, hgraph⟩ := s.convertWithin_frame "A" false shape hdepth
  obtain ⟨hdependencies, hkeys⟩ := hgraph rfl (by decide)
  refine ⟨v, s', hrun, hpath, ?_, ?_, ?_⟩
  · rw [hdependencies]
    decide
  · rw [hdependencies]
    decide
  · rw [hkeys]
    decide

end Session

end OpenApiZod
