import OpenApiZod.Conversion
import OpenApiZod.Proofs.Sentences

/-!
# Reading validators back

What the validator of a shape says is told by the shape alone: `Shape.marks` lists it in order, and
`Scope.marks` does so for a conversion that expands references in place. The text of a validator is
a sentence, and these are the marks that are read from it (`convert_reads_back`).

The induction follows the shape. Each kind of validator is a function of the namespace with methods
after it, so each case names the function, what its arguments say and the methods.
-/

namespace OpenApiZod

/-! ### What a shape says -/

/-- What a literal says. Arrays and objects are not compared. -/
def Json.mark : Json → Mark
  | .null => .null
  | .arr _ => .any
  | .obj _ => .any
  | scalar => .literal scalar.compact

/-- What one of several literals says. -/
def literalMarks (values : List Json) : List Mark :=
  if values.isEmpty then [.any] else values.map Json.mark

/-- What one of several literals says where texts are expected. -/
def enumMarks (values : List Json) : List Mark :=
  match values.mapM Validator.textOf? with
  | some texts => texts.map .choice
  | none => literalMarks values

/-- What a bound says, if there is one. -/
def boundMarks (rule : String) (bound : Option String) : List Mark :=
  (bound.map (.bound rule)).toList

/-- What the rules for a text say. -/
def StringRules.marks (r : StringRules) : List Mark :=
  if r.enum.isEmpty then
    (r.pattern.map .pattern).toList ++ boundMarks "min" (r.minLength.map toString) ++
      boundMarks "max" (r.maxLength.map toString)
  else enumMarks r.enum

/-- What the rules for a number say. -/
def NumberRules.marks (r : NumberRules) : List Mark :=
  if r.enum.isEmpty then
    boundMarks "min" (r.minimum.map Decimal.plainText) ++
      boundMarks "max" (r.maximum.map Decimal.plainText) ++
      boundMarks "gt" (r.exclusiveMinimum.map Decimal.plainText) ++
      boundMarks "lt" (r.exclusiveMaximum.map Decimal.plainText)
  else literalMarks r.enum

/-- The bounds of a number. -/
def NumberRules.bounds (r : NumberRules) : List Binary64 :=
  r.minimum.toList ++ r.maximum.toList ++ r.exclusiveMinimum.toList ++ r.exclusiveMaximum.toList

namespace Shape

mutual

/-- What the validator of a shape says, given what references say. -/
def marks (onReference : String → List Mark) : Shape → List Mark
  | .reference target => onReference target
  | .composition _ members =>
    if members.isEmpty then [.any] else marksOfMembers onReference members
  | .string rules => rules.marks
  | .number rules => rules.marks
  | .boolean => []
  | .null => [.null]
  | .literal values => literalMarks values
  | .array items minItems maxItems =>
    marksOfItems onReference items ++ boundMarks "min" (minItems.map toString) ++
      boundMarks "max" (maxItems.map toString)
  | .object properties required extra =>
    marksOfProperties onReference required properties ++ marksOfExtra onReference extra
  | .nullable inner => marks onReference inner
  | .unknown => [.any]

/-- What the validators of members say. -/
def marksOfMembers (onReference : String → List Mark) : List Shape → List Mark
  | [] => []
  | s :: rest => marks onReference s ++ marksOfMembers onReference rest

/-- What the validator of an array's items says. -/
def marksOfItems (onReference : String → List Mark) : Option Shape → List Mark
  | none => [.any]
  | some s => marks onReference s

/-- What the validators of properties say. -/
def marksOfProperties (onReference : String → List Mark) (required : List String) :
    List (String × Shape) → List Mark
  | [] => []
  | (name, s) :: rest =>
    .property name (decide (name ∉ required)) ::
      (marks onReference s ++ marksOfProperties onReference required rest)

/-- What the validator of further properties says. -/
def marksOfExtra (onReference : String → List Mark) : Extra Shape → List Mark
  | .typed values => marks onReference values
  | _ => []

end

mutual

/-- The bounds of the numbers in a shape. -/
def bounds : Shape → List Binary64
  | .composition _ members => boundsOfMembers members
  | .number rules => rules.bounds
  | .array items _ _ => boundsOfItems items
  | .object properties _ extra => boundsOfProperties properties ++ boundsOfExtra extra
  | .nullable inner => bounds inner
  | _ => []

/-- The bounds in members. -/
def boundsOfMembers : List Shape → List Binary64
  | [] => []
  | s :: rest => bounds s ++ boundsOfMembers rest

/-- The bounds in an array's items. -/
def boundsOfItems : Option Shape → List Binary64
  | none => []
  | some s => bounds s

/-- The bounds in properties. -/
def boundsOfProperties : List (String × Shape) → List Binary64
  | [] => []
  | (_, s) :: rest => bounds s ++ boundsOfProperties rest

/-- The bounds in further properties. -/
def boundsOfExtra : Extra Shape → List Binary64
  | .typed values => bounds values
  | _ => []

end

end Shape

/-- What a conversion says. Where it expands references in place, a reference says what the
component says, unless the component is being expanded already; everywhere else it gives a name. -/
def Scope.marks (scope : Scope) (binding : String → String) (path : List String) (inline : Bool)
    (shape : Shape) : List Mark :=
  shape.marks fun target =>
    if _hpath : target ∈ path then [.reference (binding target)]
    else if inline then
      match _h : scope.components.get? target with
      | some component => scope.marks binding (path ++ [target]) true component.shape
      | none => [.reference (binding target)]
    else [.reference (binding target)]
termination_by remaining scope.components.keys path
decreasing_by
  exact remaining_append_lt (Table.mem_keys_of_get? _h) _hpath

namespace Validator

open Script (Says SayAll SayFields Arguments)

variable {binding : String → String}

/-! ### Validators without parts -/

/-- A function without arguments says what it stands for. -/
theorem says_zod {name : String} {marks : List Mark}
    (hform : functionForm? name = some (.empty marks)) : Says (zod name []) marks false :=
  (Arguments.empty name marks).function hform

/-- A reference says its name. -/
theorem says_reference {target : String} (h : Identifier.isIdentifier (binding target) = true) :
    Says (script binding (.reference target)) [.reference (binding target)] false :=
  Says.identifier h

/-- A deferred reference says the same name. -/
theorem says_deferred {target : String} (h : Identifier.isIdentifier (binding target) = true) :
    Says (script binding (.deferred target)) [.reference (binding target)] false :=
  (Arguments.deferred h).function rfl

/-- The validator of anything says so. -/
theorem says_any : Says (script binding .any) [.any] false := says_zod rfl

/-- The validator of a literal says the value. -/
theorem says_ofLiteral (value : Json) :
    Says (script binding (ofLiteral value)) [value.mark] false := by
  cases value with
  | null => exact says_zod rfl
  | arr items => exact says_any
  | obj members => exact says_any
  | bool b => exact (Arguments.literal "literal" rfl).function rfl
  | int n => exact (Arguments.literal "literal" rfl).function rfl
  | float x => exact (Arguments.literal "literal" rfl).function rfl
  | str s => exact (Arguments.literal "literal" rfl).function rfl


/-! ### Rules -/

/-- What a rule for a text says. -/
def stringCheckMarks : StringCheck → List Mark
  | .regex pattern => [.pattern pattern]
  | .min length => [.bound "min" (toString length)]
  | .max length => [.bound "max" (toString length)]
  | _ => []

/-- What a rule for a number says. -/
def numberCheckMarks : NumberCheck → List Mark
  | .int => []
  | .min bound => [.bound "min" (Decimal.plainText bound)]
  | .max bound => [.bound "max" (Decimal.plainText bound)]
  | .gt bound => [.bound "gt" (Decimal.plainText bound)]
  | .lt bound => [.bound "lt" (Decimal.plainText bound)]

/-- The bound of a rule for a number. -/
def boundsOf : NumberCheck → List Binary64
  | .int => []
  | .min bound => [bound]
  | .max bound => [bound]
  | .gt bound => [bound]
  | .lt bound => [bound]

/-- A check of a text adds what it checks. -/
theorem says_applyStringCheck {e : Script} {marks : List Mark} (h : e.Says marks false)
    (check : StringCheck) :
    (applyStringCheck e check).Says (marks ++ stringCheckMarks check) false := by
  cases check with
  | datetime => exact h.method (Arguments.empty "datetime" []) rfl
  | date => exact h.method (Arguments.empty "date" []) rfl
  | email => exact h.method (Arguments.empty "email" []) rfl
  | uuid => exact h.method (Arguments.empty "uuid" []) rfl
  | url => exact h.method (Arguments.empty "url" []) rfl
  | regex pattern => exact h.method (Arguments.pattern "regex" pattern) rfl
  | min length => exact h.method (Arguments.natural "min" length) rfl
  | max length => exact h.method (Arguments.natural "max" length) rfl

/-- A check of a number adds what it checks, if its bound is finite. -/
theorem says_applyNumberCheck {e : Script} {marks : List Mark} (h : e.Says marks false)
    (check : NumberCheck) (hfinite : ∀ x ∈ boundsOf check, x.isFinite = true) :
    (applyNumberCheck e check).Says (marks ++ numberCheckMarks check) false := by
  cases check with
  | int => exact h.method (Arguments.empty "int" []) rfl
  | min bound =>
      exact h.method (Arguments.decimal "min" (hfinite bound (List.mem_singleton_self _))) rfl
  | max bound =>
      exact h.method (Arguments.decimal "max" (hfinite bound (List.mem_singleton_self _))) rfl
  | gt bound =>
      exact h.method (Arguments.decimal "gt" (hfinite bound (List.mem_singleton_self _))) rfl
  | lt bound =>
      exact h.method (Arguments.decimal "lt" (hfinite bound (List.mem_singleton_self _))) rfl

/-- Rules are said one after the other. -/
theorem says_foldl {α : Type} {apply : Script → α → Script} {said : α → List Mark} {rules : List α}
    (happly : ∀ rule ∈ rules, ∀ e marks, Says e marks false →
      (apply e rule).Says (marks ++ said rule) false)
    {e : Script} {marks : List Mark} (h : e.Says marks false) :
    (rules.foldl apply e).Says (marks ++ rules.flatMap said) false := by
  induction rules generalizing e marks with
  | nil => rwa [List.flatMap_nil, List.append_nil]
  | cons rule rules ih =>
      rw [List.foldl_cons, List.flatMap_cons, ← List.append_assoc]
      exact ih (fun other hother => happly other (List.mem_cons_of_mem rule hother))
        (happly rule List.mem_cons_self e marks h)

/-- The validator of texts says its checks in order. -/
theorem says_string {checks : List StringCheck} {marks : List Mark}
    (hmarks : checks.flatMap stringCheckMarks = marks) :
    Says (script binding (.string checks)) marks false := by
  have hstart : Says (zod "string" []) [] false := says_zod rfl
  rw [← hmarks]
  exact says_foldl (fun check _ _ _ h => says_applyStringCheck h check) hstart

/-- The validator of numbers says its checks in order. -/
theorem says_number {checks : List NumberCheck} {marks : List Mark}
    (hmarks : checks.flatMap numberCheckMarks = marks)
    (hfinite : ∀ x ∈ checks.flatMap boundsOf, x.isFinite = true) :
    Says (script binding (.number checks)) marks false := by
  have hstart : Says (zod "number" []) [] false := says_zod rfl
  rw [← hmarks]
  exact says_foldl (fun check hcheck _ _ h => says_applyNumberCheck h check fun x hx =>
    hfinite x (List.mem_flatMap.mpr ⟨check, hcheck, hx⟩)) hstart

/-- A limit on a length adds its bound, if there is one. -/
theorem says_applyLimit {e : Script} {marks : List Mark} (h : e.Says marks false) {rule : String}
    (hrule : methodForm? rule = some .bound) (hne : rule ≠ "optional") (limit : Option Nat) :
    (applyLimit rule limit e).Says (marks ++ boundMarks rule (limit.map toString)) false := by
  cases limit with
  | none =>
      show e.Says (marks ++ []) false
      rwa [List.append_nil]
  | some n =>
      have hsays := h.method (Arguments.natural rule n) hrule
      rwa [beq_false_of_ne hne] at hsays

/-! ### Compositions -/

/-- A union says what its members say, and one without members that it takes anything. -/
theorem says_unionOf {vs : List Validator} {marks : List Mark}
    (h : SayAll (scripts binding vs) marks) :
    Says (script binding (unionOf vs)) (if vs.isEmpty then [.any] else marks) false := by
  match vs with
  | [] => exact says_any
  | [v] =>
      cases h with
      | cons hv hrest =>
          cases hrest
          rwa [List.append_nil]
  | v :: w :: vs => exact (h.members "union").function rfl

/-- An intersection says what both of its sides say. -/
theorem says_intersection {v w : Validator} {marks marks' : List Mark}
    (hv : Says (script binding v) marks false) (hw : Says (script binding w) marks' false) :
    Says (script binding (.intersection v w)) (marks ++ marks') false :=
  (hv.two hw "intersection").function rfl

/-- So does a chain of intersections. -/
theorem says_foldl_intersection {v : Validator} {vs : List Validator} {marks marks' : List Mark}
    (hv : Says (script binding v) marks false) (hvs : SayAll (scripts binding vs) marks') :
    Says (script binding (vs.foldl .intersection v)) (marks ++ marks') false := by
  induction vs generalizing v marks marks' with
  | nil =>
      cases hvs
      rwa [List.append_nil]
  | cons w vs ih =>
      cases hvs with
      | cons hw hvs =>
          rw [← List.append_assoc]
          exact ih (says_intersection hv hw) hvs

/-- Every member has a validator. -/
theorem isEmpty_ofMembers (onReference : String → Validator) (members : List Shape) :
    (ofMembers onReference members).isEmpty = members.isEmpty := by
  cases members <;> rfl

/-- An intersection of members says what they say, and one without members that it takes anything.
-/
theorem says_intersectionOf {vs : List Validator} {marks : List Mark}
    (h : SayAll (scripts binding vs) marks) :
    Says (script binding (intersectionOf vs)) (if vs.isEmpty then [.any] else marks) false := by
  cases vs with
  | nil => exact says_any
  | cons v vs =>
      cases h with
      | cons hv hvs => exact says_foldl_intersection hv hvs

/-! ### Literals, texts and numbers -/

/-- The validators of values say the values. -/
theorem sayAll_literals (values : List Json) :
    SayAll (scripts binding (values.map ofLiteral)) (values.map Json.mark) := by
  induction values with
  | nil => exact .nil
  | cons value values ih => exact .cons (says_ofLiteral value) ih

/-- The validator of listed values says the values. -/
theorem says_ofLiterals (values : List Json) :
    Says (script binding (ofLiterals values)) (literalMarks values) false := by
  have hsays : Says (script binding (ofLiterals values)) _ false :=
    says_unionOf (sayAll_literals values)
  rwa [List.isEmpty_map] at hsays

/-- So does that of an enumeration. -/
theorem says_ofEnum (values : List Json) :
    Says (script binding (ofEnum values)) (enumMarks values) false := by
  rw [ofEnum, enumMarks]
  cases values.mapM textOf? with
  | none => exact says_ofLiterals values
  | some texts => exact (Arguments.choices "enum" texts).function rfl

/-- The check of a format adds no mark. -/
theorem stringCheckMarks_formatCheck (format : Option String) :
    (format.bind formatCheck?).toList.flatMap stringCheckMarks = [] := by
  cases format with
  | none => rfl
  | some format =>
      rw [Option.bind_some]
      unfold formatCheck?
      split <;> rfl

/-- The validator of a text says the rules of the text. -/
theorem says_ofString (rules : StringRules) :
    Says (script binding (ofString rules)) rules.marks false := by
  rw [ofString, StringRules.marks]
  split
  · have hpattern : (rules.pattern.map StringCheck.regex).toList.flatMap stringCheckMarks =
        (rules.pattern.map .pattern).toList := by
      cases rules.pattern <;> rfl
    have hmin : (rules.minLength.map StringCheck.min).toList.flatMap stringCheckMarks =
        boundMarks "min" (rules.minLength.map toString) := by
      cases rules.minLength <;> rfl
    have hmax : (rules.maxLength.map StringCheck.max).toList.flatMap stringCheckMarks =
        boundMarks "max" (rules.maxLength.map toString) := by
      cases rules.maxLength <;> rfl
    refine says_string ?_
    simp only [List.flatMap_append, stringCheckMarks_formatCheck, hpattern, hmin, hmax,
      List.nil_append]
  · exact says_ofEnum rules.enum

/-- An optional bound becomes an optional check with that bound. -/
theorem flatMap_bound (rule : String) (check : Binary64 → NumberCheck)
    (h : ∀ x, numberCheckMarks (check x) = [.bound rule (Decimal.plainText x)] ∧
      boundsOf (check x) = [x]) (bound : Option Binary64) :
    (bound.map check).toList.flatMap numberCheckMarks =
        boundMarks rule (bound.map Decimal.plainText) ∧
      (bound.map check).toList.flatMap boundsOf = bound.toList := by
  cases bound with
  | none => exact ⟨rfl, rfl⟩
  | some x =>
      exact ⟨(List.flatMap_singleton numberCheckMarks (check x)).trans (h x).1,
        (List.flatMap_singleton boundsOf (check x)).trans (h x).2⟩

/-- The validator of a number says the rules of the number, if all bounds are finite. -/
theorem says_ofNumber {rules : NumberRules} (hfinite : ∀ x ∈ rules.bounds, x.isFinite = true) :
    Says (script binding (ofNumber rules)) rules.marks false := by
  rw [ofNumber, NumberRules.marks]
  split
  · have hint : (if rules.integer then [NumberCheck.int] else []).flatMap numberCheckMarks = [] ∧
        (if rules.integer then [NumberCheck.int] else []).flatMap boundsOf = [] := by
      split <;> exact ⟨rfl, rfl⟩
    have hmin := flatMap_bound "min" .min (fun _ => ⟨rfl, rfl⟩) rules.minimum
    have hmax := flatMap_bound "max" .max (fun _ => ⟨rfl, rfl⟩) rules.maximum
    have hgt := flatMap_bound "gt" .gt (fun _ => ⟨rfl, rfl⟩) rules.exclusiveMinimum
    have hlt := flatMap_bound "lt" .lt (fun _ => ⟨rfl, rfl⟩) rules.exclusiveMaximum
    refine says_number ?_ fun x hx => hfinite x ?_
    · simp only [List.flatMap_append, hint.1, hmin.1, hmax.1, hgt.1, hlt.1, List.nil_append]
    · simpa only [List.flatMap_append, hint.2, hmin.2, hmax.2, hgt.2, hlt.2, List.nil_append,
        NumberRules.bounds] using hx
  · exact says_ofLiterals rules.enum

/-! ### Properties -/

/-- A property ends optional exactly if it is not required. -/
theorem says_ofProperty {required : List String} {name : String} {v : Validator} {marks : List Mark}
    (h : Says (script binding v) marks false) :
    Says (script binding (ofProperty required name v)) marks (decide (name ∉ required)) := by
  rw [ofProperty]
  split
  · rename_i hmem
    rwa [decide_eq_false (not_not_intro hmem)]
  · rename_i hmem
    have hsays : Says (script binding (.optional v)) (marks ++ []) true :=
      h.method (Arguments.empty "optional" []) rfl
    rwa [decide_eq_true hmem, ← List.append_nil marks]

/-- An object says what its fields say. -/
theorem says_object {fields : List (String × Validator)} {marks : List Mark}
    (h : SayFields (scriptFields binding fields) marks) (hne : fields ≠ []) :
    Says (zod "object" [.record (scriptFields binding fields)]) marks false := by
  have hne' : scriptFields binding fields ≠ [] := by
    cases fields with
    | nil => exact absurd rfl hne
    | cons field fields => exact List.cons_ne_nil _ _
  exact (h.fields hne' "object").function rfl

/-- A nullable says what the validator in it says. -/
theorem says_nullable {v : Validator} {marks : List Mark}
    (h : Says (script binding v) marks false) :
    Says (script binding (.nullable v)) marks false := by
  have hsays : Says (script binding (.nullable v)) (marks ++ []) false :=
    h.method (Arguments.empty "nullable" []) rfl
  rwa [List.append_nil] at hsays

/-- An array says its items and the limits on its length. -/
theorem says_array {items : Validator} {marks : List Mark}
    (h : Says (script binding items) marks false) (minItems maxItems : Option Nat) :
    Says (script binding (.array items minItems maxItems))
      (marks ++ boundMarks "min" (minItems.map toString) ++
        boundMarks "max" (maxItems.map toString)) false := by
  have harray : Says (zod "array" [script binding items]) marks false :=
    (h.one "array").function rfl
  exact says_applyLimit (says_applyLimit harray rfl (by decide) minItems) rfl (by decide) maxItems

/-- A record says what its values say. -/
theorem says_record {values : Option Validator} {marks : List Mark}
    (h : ∀ v ∈ values, Says (script binding v) marks false) (hnone : values = none → marks = []) :
    Says (script binding (.record values)) marks false := by
  have hkey : Says (zod "string" []) [] false := says_zod rfl
  cases values with
  | none =>
      obtain rfl := hnone rfl
      have hvalue : Says (zod "unknown" []) [] false := says_zod rfl
      exact (hkey.two hvalue "record").function rfl
  | some v => exact (hkey.two (h v rfl) "record").function rfl

/-! ### Shapes -/

section OfShape

/-- The validators that stand for references say what is said of their targets. -/
def ReferencesSay (binding : String → String) (onReference : String → Validator)
    (said : String → List Mark) : Prop :=
  ∀ target, Says (script binding (onReference target)) (said target) false

variable {onReference : String → Validator} {said : String → List Mark}

mutual

/-- The validator of a shape says what the shape says. -/
theorem says_ofShape (href : ReferencesSay binding onReference said) : ∀ s : Shape,
    (∀ x ∈ s.bounds, x.isFinite = true) →
      Says (script binding (ofShape onReference s)) (s.marks said) false
  | .reference target, _ => by
      rw [ofShape, Shape.marks]
      exact href target
  | .composition .allOf members, h => by
      have hsays := says_intersectionOf (sayAll_ofMembers href members h)
      rw [isEmpty_ofMembers] at hsays
      rwa [ofShape, Shape.marks]
  | .composition .oneOf members, h => by
      have hsays := says_unionOf (sayAll_ofMembers href members h)
      rw [isEmpty_ofMembers] at hsays
      rwa [Shape.marks]
  | .composition .anyOf members, h => by
      have hsays := says_unionOf (sayAll_ofMembers href members h)
      rw [isEmpty_ofMembers] at hsays
      rwa [Shape.marks]
  | .string rules, _ => says_ofString rules
  | .number rules, h => says_ofNumber h
  | .boolean, _ => says_zod rfl
  | .null, _ => says_zod rfl
  | .literal values, _ => says_ofLiterals values
  | .array items minItems maxItems, h => by
      rw [ofShape, Shape.marks]
      exact says_array (says_ofItems href items h) minItems maxItems
  | .object [] required extra, h => by
      rw [ofShape, Shape.marks, Shape.marksOfProperties, List.nil_append]
      cases extra with
      | typed values =>
          refine says_record (fun v hv => ?_) nofun
          obtain rfl := Option.some.inj hv
          exact says_ofShape href values h
      | unspecified => exact says_record nofun fun _ => rfl
      | forbidden => exact says_record nofun fun _ => rfl
      | unrestricted => exact says_record nofun fun _ => rfl
  | .object (property :: properties) required extra, h => by
      rw [Shape.bounds, List.forall_mem_append] at h
      rw [ofShape, Shape.marks]
      have hfields := sayFields_ofProperties href required (property :: properties) h.1
      exact says_ofExtra href extra h.2 (says_object hfields (List.cons_ne_nil _ _))
  | .nullable inner, h => by
      rw [ofShape, Shape.marks]
      exact says_nullable (says_ofShape href inner h)
  | .unknown, _ => says_any

/-- The validators of members say what the members say. -/
theorem sayAll_ofMembers (href : ReferencesSay binding onReference said) : ∀ members : List Shape,
    (∀ x ∈ Shape.boundsOfMembers members, x.isFinite = true) →
      SayAll (scripts binding (ofMembers onReference members))
        (Shape.marksOfMembers said members)
  | [], _ => .nil
  | s :: rest, h => by
      rw [Shape.boundsOfMembers, List.forall_mem_append] at h
      exact .cons (says_ofShape href s h.1) (sayAll_ofMembers href rest h.2)

/-- The validator of items says what the items say, and anything without them. -/
theorem says_ofItems (href : ReferencesSay binding onReference said) : ∀ items : Option Shape,
    (∀ x ∈ Shape.boundsOfItems items, x.isFinite = true) →
      Says (script binding (ofItems onReference items)) (Shape.marksOfItems said items) false
  | none, _ => says_any
  | some s, h => says_ofShape href s h

/-- The fields of an object say what the properties say. -/
theorem sayFields_ofProperties (href : ReferencesSay binding onReference said)
    (required : List String) : ∀ properties : List (String × Shape),
    (∀ x ∈ Shape.boundsOfProperties properties, x.isFinite = true) →
      SayFields (scriptFields binding (ofProperties onReference required properties))
        (Shape.marksOfProperties said required properties)
  | [], _ => .nil
  | (name, s) :: rest, h => by
      rw [Shape.boundsOfProperties, List.forall_mem_append] at h
      exact .cons name (says_ofProperty (says_ofShape href s h.1))
        (sayFields_ofProperties href required rest h.2)

/-- The treatment of further properties adds what it says. -/
theorem says_ofExtra (href : ReferencesSay binding onReference said) : ∀ extra : Extra Shape,
    (∀ x ∈ Shape.boundsOfExtra extra, x.isFinite = true) → ∀ {e : Script} {marks : List Mark},
      e.Says marks false →
        (applyExtra binding (ofExtra onReference extra) e).Says
          (marks ++ Shape.marksOfExtra said extra) false
  | .unspecified, _, _, marks, he => by
      rw [Shape.marksOfExtra, List.append_nil]
      · exact he
      · exact nofun
  | .forbidden, _, _, _, he => he.method (Arguments.empty "strict" []) rfl
  | .unrestricted, _, _, _, he => he.method (Arguments.empty "passthrough" []) rfl
  | .typed values, h, _, _, he => he.method ((says_ofShape href values h).one "catchall") rfl

end

end OfShape

end Validator

/-! ### Bindings -/

/-- A first character that may start an identifier and others that may go on with it make an
identifier. -/
theorem Identifier.isIdentifier_of_toList {s : String} {c : Char} {cs : List Char}
    (hs : s.toList = c :: cs) (hstart : isStart c = true) (hcs : ∀ d ∈ cs, isPart d = true) :
    isIdentifier s = true := by
  rw [isIdentifier, hs]
  exact (Bool.and_eq_true _ _).mpr ⟨hstart, List.all_eq_true.mpr hcs⟩

/-- Parts of identifiers other than digits may start one. -/
theorem Identifier.isStart_of_isPart {c : Char} (h : isPart c = true) (hdigit : c.isDigit = false) :
    isStart c = true := by
  rwa [isPart_eq, hdigit, Bool.or_false] at h

/-- The binding of every name is an identifier. -/
theorem Identifier.isIdentifier_ofName (name : String) : isIdentifier (ofName name) = true := by
  have hparts : ∀ c ∈ (sanitize name).toList, isPart c = true := by
    intro c hc
    rw [sanitize, String.toList_ofList] at hc
    obtain ⟨d, -, rfl⟩ := List.mem_map.mp hc
    split
    · assumption
    · decide
  rw [ofName]
  split
  · have hs : ("_" ++ sanitize name).toList = '_' :: (sanitize name).toList :=
      String.toList_append ..
    exact isIdentifier_of_toList hs (by decide) hparts
  · rename_i hdigit
    cases hs : (sanitize name).toList with
    | nil =>
        rw [hs] at hdigit
        exact absurd rfl hdigit
    | cons c cs =>
        rw [hs] at hdigit hparts
        have hstart : isStart c = true :=
          isStart_of_isPart (hparts c List.mem_cons_self) ((Bool.not_eq_true _).mp hdigit)
        have hcs : ∀ d ∈ cs, isPart d = true := fun d hd => hparts d (List.mem_cons_of_mem c hd)
        split
        · have hs' : (sanitize name ++ "_").toList = c :: (cs ++ ['_']) := by
            rw [String.toList_append, hs]
            rfl
          refine isIdentifier_of_toList hs' hstart fun d hd => ?_
          rcases List.mem_append.mp hd with hd | hd
          · exact hcs d hd
          · rw [List.mem_singleton.mp hd]
            decide
        · exact isIdentifier_of_toList hs hstart hcs

/-- A binding is an identifier where all aliases are. -/
theorem isIdentifier_bindingUnder {aliases : Table String}
    (h : ∀ other ∈ aliases.values, Identifier.isIdentifier other = true) (component : String) :
    Identifier.isIdentifier (bindingUnder aliases component) = true := by
  rw [bindingUnder]
  cases halias : aliases.get? component with
  | none => exact Identifier.isIdentifier_ofName component
  | some other =>
      have hentry : (component, other) ∈ aliases.entries := Table.mem_entries_iff.mpr halias
      exact h other (List.mem_map_of_mem hentry)

/-! ### Conversions -/

/-- What a conversion says, if all names are identifiers and all bounds are finite. -/
theorem Scope.says_convert {scope : Scope} {binding : String → String}
    (hbinding : ∀ target, Identifier.isIdentifier (binding target) = true)
    (hcomponents : ∀ component ∈ scope.components.values,
      ∀ x ∈ component.shape.bounds, x.isFinite = true)
    (path : List String) (owner : String) (inline : Bool) (shape : Shape)
    (hshape : ∀ x ∈ shape.bounds, x.isFinite = true) :
    ((scope.convert path owner inline shape).script binding).Says
      (scope.marks binding path inline shape) false := by
  rw [convert, marks]
  refine Validator.says_ofShape (fun target => ?_) shape hshape
  by_cases hpath : target ∈ path
  · rw [dif_pos hpath, dif_pos hpath]
    exact Validator.says_deferred (hbinding target)
  rw [dif_neg hpath, dif_neg hpath]
  cases inline with
  | false =>
      rw [if_neg Bool.false_ne_true]
      split
      · exact Validator.says_deferred (hbinding target)
      · rw [if_neg Bool.false_ne_true]
        exact Validator.says_reference (hbinding target)
  | true =>
      rw [Bool.not_true, Bool.false_and, if_neg Bool.false_ne_true, if_pos rfl, if_pos rfl]
      cases hget : scope.components.get? target with
      | none => exact Validator.says_reference (hbinding target)
      | some component =>
          have hentry : (target, component) ∈ scope.components.entries :=
            Table.mem_entries_iff.mpr hget
          exact says_convert hbinding hcomponents (path ++ [target]) target true component.shape
            (hcomponents component (List.mem_map_of_mem hentry))
termination_by remaining scope.components.keys path
decreasing_by
  exact remaining_append_lt (Table.mem_keys_of_get? (by assumption)) (by assumption)

/-- **Reading validators back.** Where the aliases are identifiers and the bounds of the shape and
of all components are finite, take the text of any conversion's validator. It is read as one phrase,
from its first character to its last, and this is the syntax tree of the expression: no name and no
text in it is taken for anything else. The phrase is a sentence, and what it says, in order, is what
the shape says, with references expanded in place where the conversion expands them. -/
theorem convert_reads_back (scope : Scope) (aliases : Table String) (path : List String)
    (owner : String) (inline : Bool) (shape : Shape)
    (haliases : ∀ other ∈ aliases.values, Identifier.isIdentifier other = true)
    (hcomponents : ∀ component ∈ scope.components.values,
      ∀ x ∈ component.shape.bounds, x.isFinite = true)
    (hshape : ∀ x ∈ shape.bounds, x.isFinite = true) :
    let binding := bindingUnder aliases
    let v := scope.convert path owner inline shape
    ∃ p, (v.script binding).phrase? = some p ∧ Phrase.read? (v.render binding) = some p ∧
      p.marks? = some (scope.marks binding path inline shape) := by
  intro binding v
  have hbinding := isIdentifier_bindingUnder haliases
  obtain ⟨p, hp, hwell, hmarks, -⟩ :=
    Scope.says_convert hbinding hcomponents path owner inline shape hshape
  refine ⟨p, hp, ?_, hmarks⟩
  rw [Validator.render, ← Script.render_of_phrase? _ hp]
  exact Phrase.read?_render hwell

/-- A property whose name has a quote, with a pattern that would close the call. Next to it stand a
component that is expanded in place and a name under its alias. -/
theorem convert_reads_back_quotes :
    let age : Shape := .number ⟨true, some (.finite false 0 (-1074)), none, none, none, []⟩
    let scope : Scope := ⟨.ofList [("Age", ⟨"Age", none, age⟩)], none⟩
    let aliases : Table String := .ofList [("Pet", "Pet_")]
    let shape : Shape := .object
      [("a\"b", .string ⟨none, some "\")", none, some 3, []⟩), ("age", .reference "Age"),
        ("pet", .reference "Pet")] ["age"] .forbidden
    let text := "z.object(\x7b \"a\\\"b\": z.string().regex(new RegExp(\"\\\")\")).max(3)" ++
      ".optional(), age: z.number().int().min(0), pet: Pet_.optional() \x7d).strict()"
    (scope.convert [] "" true shape).render (bindingUnder aliases) = text ∧
      ∃ p, Phrase.read? text = some p ∧ p.marks? = some
        [.property "a\"b" true, .pattern "\")", .bound "max" "3", .property "age" false,
          .bound "min" "0", .property "pet" true, .reference "Pet_"] := by
  intro age scope aliases shape text
  have hage : scope.convert ["Age"] "Age" true age =
      .number [.int, .min (.finite false 0 (-1074))] := by
    rw [Scope.convert]
    rfl
  have hmarksAge : scope.marks (bindingUnder aliases) ["Age"] true age = [.bound "min" "0"] := by
    rw [Scope.marks]
    decide
  have hconvert : scope.convert [] "" true shape = .object
      [("a\"b", .optional (.string [.regex "\")", .max 3])),
        ("age", scope.convert ["Age"] "Age" true age), ("pet", .optional (.reference "Pet"))]
      .forbidden := by
    rw [Scope.convert]
    rfl
  have hrender : (scope.convert [] "" true shape).render (bindingUnder aliases) = text := by
    rw [hconvert, hage]
    decide +kernel
  have hmarks : scope.marks (bindingUnder aliases) [] true shape =
      [.property "a\"b" true, .pattern "\")", .bound "max" "3", .property "age" false] ++
        (scope.marks (bindingUnder aliases) ["Age"] true age ++
          [.property "pet" true, .reference "Pet_"]) ++ [] := by
    rw [Scope.marks]
    rfl
  obtain ⟨p, -, hread, hsaid⟩ := convert_reads_back scope aliases [] "" true shape (by decide)
    (by decide) (by decide)
  rw [hrender] at hread
  rw [hmarks, hmarksAge] at hsaid
  exact ⟨hrender, p, hread, hsaid⟩

end OpenApiZod
