import Mathlib.Algebra.Group.Nat.Defs
import OpenApiZod.Proofs.BareDocuments
import OpenApiZod.Proofs.ReadBack
import OpenApiZod.Proofs.ReadSchemas
import OpenApiZod.Proofs.ShapeTrees

/-!
# Bounds of numbers

A validator of a number writes each bound as the argument of a limit. The argument is a decimal
exactly if the bound is finite: an infinite bound is written as `inf`, and one that is no number as
`NaN`, and neither is a decimal.

In JSON every number is finite, and integers are within 64 bits, so all arguments of all limits are
decimals. In YAML a number may be written as a word, `.inf` or `.nan`; where a text has no such
word, all arguments are decimals (`Document.decimal_limits`). With such a word they need not be
(`Document.infinite_limit`).
-/

namespace OpenApiZod

/-! ### Limits -/

/-- The name of the rule in code. -/
def NumberCheck.method : NumberCheck → String
  | .int => "int"
  | .min _ => "min"
  | .max _ => "max"
  | .gt _ => "gt"
  | .lt _ => "lt"

/-- The arguments of the rule in code. -/
def NumberCheck.arguments (check : NumberCheck) : List String :=
  (Validator.boundsOf check).map Decimal.plainText

namespace Validator

/-- The rules of a validator of a number. -/
def checks : Validator → List NumberCheck
  | .number checks => checks
  | _ => []

/-- A check is written as one more call. -/
theorem render_applyNumberCheck (e : Script) (check : NumberCheck) :
    (applyNumberCheck e check).render =
      e.render ++ ("." ++ check.method ++ "(" ++ Text.separated ", " check.arguments ++ ")") := by
  cases check <;>
    simp [applyNumberCheck, chain, Script.render, Script.renderAll, NumberCheck.method,
      NumberCheck.arguments, boundsOf, String.append_assoc]

/-- Several checks are written one after the other. -/
theorem render_foldl_applyNumberCheck (cs : List NumberCheck) (e : Script) :
    (cs.foldl applyNumberCheck e).render = e.render ++ String.join (cs.map fun check =>
      "." ++ check.method ++ "(" ++ Text.separated ", " check.arguments ++ ")") := by
  induction cs generalizing e with
  | nil => simp [String.join]
  | cons check rest ih =>
      rw [List.foldl_cons, ih, render_applyNumberCheck, List.map_cons, String.join_cons,
        String.append_assoc]

/-- The text of a validator of a number is made of its rules and their arguments. -/
theorem render_number (binding : String → String) (cs : List NumberCheck) :
    (Validator.number cs).render binding = "z.number()" ++ String.join (cs.map fun check =>
      "." ++ check.method ++ "(" ++ Text.separated ", " check.arguments ++ ")") := by
  rw [render, script, render_foldl_applyNumberCheck]
  rfl

/-- Literals have no checks. -/
theorem checks_ofLiterals (values : List Json) : (ofLiterals values).checks = [] := by
  have hone (value : Json) : (ofLiteral value).checks = [] := by cases value <;> rfl
  match values with
  | [] => rfl
  | [value] => exact hone value
  | _ :: _ :: _ => rfl

/-- The bounds of a number without a list of values are the bounds of the rules of its validator. -/
theorem flatMap_boundsOf_checks (rules : NumberRules) :
    (ofNumber rules).checks.flatMap boundsOf =
      if rules.enum.isEmpty then rules.bounds else [] := by
  have hbound (check : Binary64 → NumberCheck) (h : ∀ x, boundsOf (check x) = [x])
      (bound : Option Binary64) : (bound.map check).toList.flatMap boundsOf = bound.toList := by
    cases bound with
    | none => rfl
    | some x => exact (List.flatMap_singleton boundsOf (check x)).trans (h x)
  rw [ofNumber]
  split
  · have hint : (if rules.integer then [NumberCheck.int] else []).flatMap boundsOf = [] := by
      split <;> rfl
    simp only [checks, List.flatMap_append, hint, hbound .min (fun _ => rfl),
      hbound .max (fun _ => rfl), hbound .gt (fun _ => rfl), hbound .lt (fun _ => rfl),
      List.nil_append, NumberRules.bounds]
  · rw [checks_ofLiterals]
    rfl

end Validator

namespace Shape

/-- Whether all arguments in the limits of a number are decimals. -/
def HasDecimalLimits : Shape → Prop
  | .number rules => ∀ check ∈ (Validator.ofNumber rules).checks, ∀ argument ∈ check.arguments,
    IsDecimal argument.toList
  | _ => True

/-- Whether all bounds of a number that is not given by its values are finite. -/
def HasFiniteBounds : Shape → Prop
  | .number rules => rules.enum = [] → ∀ x ∈ rules.bounds, x.isFinite = true
  | _ => True

/-- The limits that are printed are decimals exactly if the bounds are finite. -/
theorem hasDecimalLimits_iff (s : Shape) : s.HasDecimalLimits ↔ s.HasFiniteBounds := by
  cases s with
  | number rules =>
      have hall : HasDecimalLimits (.number rules) ↔
          ∀ x ∈ (Validator.ofNumber rules).checks.flatMap Validator.boundsOf,
            x.isFinite = true := by
        simp only [HasDecimalLimits, NumberCheck.arguments, List.forall_mem_flatMap,
          List.forall_mem_map, isDecimal_plainText_iff]
      rw [hall, Validator.flatMap_boundsOf_checks, HasFiniteBounds]
      cases rules.enum with
      | nil => exact ⟨fun h _ => h, fun h => h rfl⟩
      | cons => exact iff_of_true (fun _ hx => absurd hx List.not_mem_nil) nofun
  | _ => exact Iff.rfl

end Shape

/-! ### Finite numbers -/

/-- Integers of up to 64 bits are far below the largest double. -/
theorem Binary64.isFinite_ofInt {n : Int} (h : n.natAbs ≤ 2 ^ 64) : (ofInt n).isFinite = true := by
  rw [ofInt, ofRatio]
  split
  · rfl
  · rename_i hne
    have hlog : Nat.log2 n.natAbs ≤ 64 := by
      have hlt : Nat.log2 n.natAbs < 65 := (Nat.log2_lt hne).mpr (by omega)
      omega
    have hscale : scaleOf n.natAbs 1 ≤ 12 := by
      have hone : Nat.log2 1 = 0 := by decide
      rw [scaleOf, hone]
      dsimp only
      split <;> omega
    dsimp only
    split
    · rw [if_neg (by dsimp only; omega)]
      rfl
    · rw [if_neg (by dsimp only; omega)]
      rfl

/-- For a value without parts it is enough that the property holds of itself. -/
theorem Datum.Everywhere.leaf {P : Datum → Prop} {d : Datum} (hparts : d.parts = []) (own : P d) :
    d.Everywhere P :=
  .intro own (hparts ▸ fun _ hpart => absurd hpart List.not_mem_nil)

/-- A typed value that is a finite number if it is one. -/
def Datum.HasFiniteNumber (d : Datum) : Prop := ∀ x, d.number? = some x → x.isFinite = true

/-- Integers of up to 64 bits are finite numbers. -/
theorem Datum.hasFiniteNumber_int {n : Int} (h : n.natAbs ≤ 2 ^ 64) :
    HasFiniteNumber (.int n) := by
  rintro _ ⟨⟩
  exact Binary64.isFinite_ofInt h

/-- So is a double that is finite. -/
theorem Datum.hasFiniteNumber_float {x : Binary64} (h : x.isFinite = true) :
    HasFiniteNumber (.float x) := by
  rintro _ ⟨⟩
  exact h

/-! ### Keywords -/

/-- All numbers that keywords give as bounds are finite. -/
structure Keywords.HasFiniteBounds {σ : Type} (k : Keywords σ) : Prop where
  minimum : ∀ x, k.minimum = some x → x.isFinite = true
  maximum : ∀ x, k.maximum = some x → x.isFinite = true
  exclusiveMinimum : ∀ x, k.exclusiveMinimum = some (.value x) → x.isFinite = true
  exclusiveMaximum : ∀ x, k.exclusiveMaximum = some (.value x) → x.isFinite = true

/-- Keywords that are read from finite numbers have finite bounds. -/
theorem Reading.Gives.hasFiniteBounds {fields : Fields Reading} {k : Keywords Schema}
    (h : Gives fields k) (hfields : ∀ e ∈ fields, e.2.datum.HasFiniteNumber) :
    k.HasFiniteBounds := by
  have hinclusive {name : String} {bound : Option Binary64}
      (hread : Fields.readOptional? fields name (fun r => r.datum.number?) = some bound) :
      ∀ x, bound = some x → x.isFinite = true := by
    rintro x rfl
    obtain ⟨e, he, r, hr, hx⟩ := Fields.exists_mem_of_readOptional? hread
    obtain rfl := eq_of_present? hr
    exact hfields e he x hx
  have hexclusive {name : String} {bound : Option ExclusiveBound}
      (hread : Fields.readOptional? fields name (fun r => exclusive? r.datum) = some bound) :
      ∀ x, bound = some (.value x) → x.isFinite = true := by
    rintro x rfl
    obtain ⟨e, he, r, hr, hx⟩ := Fields.exists_mem_of_readOptional? hread
    obtain rfl := eq_of_present? hr
    unfold exclusive? at hx
    split at hx
    · exact nomatch hx
    · obtain ⟨_, hnumber, ⟨⟩⟩ := Option.map_eq_some_iff.mp hx
      exact hfields e he x hnumber
  exact ⟨hinclusive h.minimum, hinclusive h.maximum, hexclusive h.exclusiveMinimum,
    hexclusive h.exclusiveMaximum⟩

namespace Shape

/-- Both halves of a bound that comes apart are bounds that were given. -/
theorem isFinite_splitBound {inclusive : Option Binary64} {exclusive : Option ExclusiveBound}
    (hinclusive : ∀ x, inclusive = some x → x.isFinite = true)
    (hexclusive : ∀ x, exclusive = some (.value x) → x.isFinite = true) :
    (∀ x, (splitBound inclusive exclusive).1 = some x → x.isFinite = true) ∧
      ∀ x, (splitBound inclusive exclusive).2 = some x → x.isFinite = true := by
  rcases exclusive with _ | (_ | _) | bound
  · exact ⟨hinclusive, nofun⟩
  · exact ⟨hinclusive, nofun⟩
  · exact ⟨nofun, hinclusive⟩
  · exact ⟨hinclusive, fun x hx => hexclusive x (by rw [Option.some.inj hx])⟩

/-- The bounds of a number are bounds of its keywords. -/
theorem hasFiniteBounds_ofNumber {k : Keywords Shape} (h : k.HasFiniteBounds) (integer : Bool) :
    (ofNumber k integer).HasFiniteBounds := by
  have hlow := isFinite_splitBound h.minimum h.exclusiveMinimum
  have hhigh := isFinite_splitBound h.maximum h.exclusiveMaximum
  intro _
  simp only [NumberRules.bounds, List.forall_mem_append, Option.mem_toList]
  exact ⟨⟨⟨hlow.1, hhigh.1⟩, hlow.2⟩, hhigh.2⟩

/-- Finite bounds at all levels of a schema are finite everywhere in its shape. -/
theorem everywhere_hasFiniteBounds {s : Schema} (hs : s.Everywhere Keywords.HasFiniteBounds) :
    (ofSchema s).Everywhere HasFiniteBounds := by
  refine everywhere_ofSchema (fun _ => trivial) (fun k hk => ?_) hs
  have hmap : (k.map ofSchema).HasFiniteBounds :=
    ⟨hk.minimum, hk.maximum, hk.exclusiveMinimum, hk.exclusiveMaximum⟩
  refine ⟨fun name => ?_, fun _ _ _ => trivial, fun _ _ => trivial, fun _ _ => trivial⟩
  cases name with
  | number | integer => exact hasFiniteBounds_ofNumber hmap _
  | _ => trivial

/-- What follows at each node follows everywhere. -/
theorem Everywhere.imp {P Q : Shape → Prop} (h : ∀ s, P s → Q s) {s : Shape}
    (hs : s.Everywhere P) : s.Everywhere Q := by
  induction hs with
  | intro own _ ih => exact .intro (h _ own) ih

end Shape

/-- All limits that a document makes are decimals if all typed values in it are finite. -/
theorem Document.hasDecimalLimits_of_read? {ν : Type} [Source ν] {G : ν → Prop}
    (hG : Inherited G Datum.HasFiniteNumber) {part : ν} (hpart : G part) {d : Document}
    (h : Document.read? part = some d) :
    ∀ s ∈ d.schemas, (Shape.ofSchema s).Everywhere Shape.HasDecimalLimits := by
  intro s hs
  have hbounds : s.Everywhere Keywords.HasFiniteBounds :=
    Document.forall_schemas_of_read? hG (fun hd _ hread => Schema.everywhere_of_ofDatum?
      (fun _ _ hgives hfields => hgives.hasFiniteBounds hfields) hd hread) hpart h s hs
  exact (Shape.everywhere_hasFiniteBounds hbounds).imp fun s => s.hasDecimalLimits_iff.mpr

/-! ### JSON -/

namespace Json

/-- The number that a numeral of a JSON text gives is finite: beyond the doubles it has no value. -/
theorem Numeral.everywhere_datum? {n : Numeral} {d : Datum} (h : n.datum? = some d) :
    d.Everywhere Datum.HasFiniteNumber := by
  have hfinite {x : Binary64} {d : Datum} (hx : Numeral.datum?.finite? x = some d) :
      d.Everywhere Datum.HasFiniteNumber := by
    rw [Numeral.datum?.finite?] at hx
    split at hx
    · obtain rfl := Option.some.inj hx
      exact .leaf rfl (Datum.hasFiniteNumber_float ‹_›)
    · cases hx
  have hint {m : Int} (hm : m.natAbs ≤ 2 ^ 64) :
      Datum.Everywhere Datum.HasFiniteNumber (.int m) :=
    .leaf rfl (Datum.hasFiniteNumber_int hm)
  cases n with
  | decimal negative whole fraction exponent => exact hfinite h
  | integer negative magnitude =>
      rw [Numeral.datum?] at h
      split at h
      · split at h
        · rename_i hrange
          obtain rfl := Option.some.inj h
          exact hint (by have := hrange.2; simp only [Nat.pow_eq] at this; omega)
        · exact hfinite h
      · split at h
        · rename_i hrange
          obtain rfl := Option.some.inj h
          exact hint (by simp only [Nat.pow_eq] at hrange; omega)
        · exact hfinite h

namespace Tree

mutual

/-- All numbers in a JSON text are finite. -/
theorem everywhere_datum? : ∀ (t : Tree) {d : Datum}, t.datum? = some d →
    d.Everywhere Datum.HasFiniteNumber
  | .null, _, h => by
      obtain rfl := Option.some.inj h
      exact .leaf rfl nofun
  | .bool _, _, h => by
      obtain rfl := Option.some.inj h
      exact .leaf rfl nofun
  | .number _, _, h => Numeral.everywhere_datum? h
  | .string _, _, h => by
      obtain ⟨_, -, rfl⟩ := Option.map_eq_some_iff.mp h
      exact .leaf rfl nofun
  | .array items, _, h => by
      obtain ⟨ds, hds, rfl⟩ := Option.map_eq_some_iff.mp h
      exact .intro nofun (everywhere_datumItems? items hds)
  | .object members, _, h => by
      obtain ⟨ds, hds, rfl⟩ := Option.map_eq_some_iff.mp h
      exact .intro nofun (List.forall_mem_map.mpr (everywhere_datumMembers? members hds))

/-- So are the numbers in the elements of an array. -/
theorem everywhere_datumItems? : ∀ (items : List Tree) {ds : List Datum},
    datumItems? items = some ds → ∀ d ∈ ds, d.Everywhere Datum.HasFiniteNumber
  | [], _, h => by
      obtain rfl := Option.some.inj h
      exact fun _ hd => absurd hd List.not_mem_nil
  | t :: rest, _, h => by
      unfold datumItems? at h
      split at h
      · rename_i hd hds
        obtain rfl := Option.some.inj h
        exact List.forall_mem_cons.mpr ⟨everywhere_datum? t hd, everywhere_datumItems? rest hds⟩
      · exact nomatch h

/-- So are those in the members of an object. -/
theorem everywhere_datumMembers? : ∀ (members : List (Option String × Tree))
    {entries : List (Datum × Datum)}, datumMembers? members = some entries →
      ∀ e ∈ entries, e.2.Everywhere Datum.HasFiniteNumber
  | [], _, h => by
      obtain rfl := Option.some.inj h
      exact fun _ he => absurd he List.not_mem_nil
  | (_, t) :: rest, _, h => by
      unfold datumMembers? at h
      split at h
      · rename_i hd hrest
        obtain rfl := Option.some.inj h
        exact List.forall_mem_cons.mpr ⟨everywhere_datum? t hd, everywhere_datumMembers? rest hrest⟩
      · exact nomatch h

end

/-- Reading a JSON text asks for nothing, since every typed value in it has finite numbers only. -/
theorem inherited : Inherited (fun _ : Tree => True) Datum.HasFiniteNumber where
  present _ _ := trivial
  entries _ _ _ _ := trivial
  fields _ _ _ _ := trivial
  datum _ h := everywhere_datum? _ h

end Tree

end Json

/-! ### YAML -/

namespace Yaml

/-- A node that is no scalar spelling a number beyond the finite ones. -/
def Node.IsFinite : Node → Prop
  | .scalar _ tag style text =>
    ∀ x, CoreSchema.datum? tag style text = some (.float x) → x.isFinite = true
  | _ => True

namespace CoreSchema

/-- An integer that has a typed value has at most 64 bits. -/
theorem everywhere_ofInt? {n : Int} {d : Datum} (h : ofInt? n = some d) :
    d.Everywhere Datum.HasFiniteNumber := by
  rw [ofInt?] at h
  split at h
  · rename_i hrange
    obtain rfl := Option.some.inj h
    refine .leaf rfl (Datum.hasFiniteNumber_int ?_)
    simp only [isRepresentable, Bool.or_eq_true, Bool.and_eq_true, decide_eq_true_eq, Nat.pow_eq]
      at hrange
    omega
  · exact nomatch h

/-- A plain scalar gives a finite number unless it spells out one that is not. -/
theorem everywhere_plain? {text : String} {d : Datum} (h : plain? text = some d)
    (hfinite : ∀ x, d = .float x → x.isFinite = true) : d.Everywhere Datum.HasFiniteNumber := by
  rw [plain?] at h
  split at h
  · obtain rfl := Option.some.inj h
    exact .leaf rfl nofun
  split at h
  · obtain rfl := Option.some.inj h
    exact .leaf rfl nofun
  · exact everywhere_ofInt? h
  split at h
  · obtain rfl := Option.some.inj h
    exact .leaf rfl nofun
  · obtain rfl := Option.some.inj h
    cases hx : float? text with
    | none => exact .leaf rfl nofun
    | some x => exact .leaf rfl (Datum.hasFiniteNumber_float (hfinite x (by rw [hx]; rfl)))

/-- A scalar with a value that is no number beyond the finite ones has finite numbers only: integers
are finite. -/
theorem everywhere_datum? {tag : Option String} {style : Style} {text : String} {d : Datum}
    (h : datum? tag style text = some d) (hfinite : ∀ x, d = .float x → x.isFinite = true) :
    d.Everywhere Datum.HasFiniteNumber := by
  cases tag with
  | none =>
      rw [datum?] at h
      split at h
      · exact everywhere_plain? h hfinite
      · obtain rfl := Option.some.inj h
        exact .leaf rfl nofun
  | some tag =>
      simp only [datum?] at h
      split at h
      · obtain ⟨_, -, rfl⟩ := Option.map_eq_some_iff.mp h
        exact .leaf rfl nofun
      split at h
      · obtain ⟨n, -, h⟩ := Option.bind_eq_some_iff.mp h
        exact everywhere_ofInt? h
      split at h
      · obtain ⟨x, -, rfl⟩ := Option.map_eq_some_iff.mp h
        exact .leaf rfl (Datum.hasFiniteNumber_float (hfinite x rfl))
      split at h
      · split at h
        · obtain rfl := Option.some.inj h
          exact .leaf rfl nofun
        · exact nomatch h
      split at h
      · exact nomatch h
      · obtain rfl := Option.some.inj h
        exact .leaf rfl nofun

end CoreSchema

namespace Node

mutual

/-- The nodes of a node in a tree are nodes of the tree. -/
theorem all_subset : ∀ {root n : Node}, n ∈ root.all → n.all ⊆ root.all
  | .scalar .., n, h => by
      obtain rfl := List.mem_singleton.mp h
      exact List.Subset.refl _
  | .aliasOf _, n, h => by
      obtain rfl := List.mem_singleton.mp h
      exact List.Subset.refl _
  | .sequence _ _ items, n, h => by
      rcases List.mem_cons.mp h with rfl | h
      · exact List.Subset.refl _
      · exact List.subset_cons_of_subset _ (all_subset_items h)
  | .mapping _ _ entries, n, h => by
      rcases List.mem_cons.mp h with rfl | h
      · exact List.Subset.refl _
      · exact List.subset_cons_of_subset _ (all_subset_entries h)

/-- Nodes inside a node of a sequence are inside the sequence. -/
theorem all_subset_items : ∀ {items : List Node} {n : Node}, n ∈ allItems items →
    n.all ⊆ allItems items
  | [], _, h => absurd h List.not_mem_nil
  | first :: rest, n, h => by
      rcases List.mem_append.mp h with h | h
      · exact List.subset_append_of_subset_left _ (all_subset h)
      · exact List.subset_append_of_subset_right _ (all_subset_items h)

/-- Nodes inside a node of a mapping are inside the mapping. -/
theorem all_subset_entries : ∀ {entries : List (Node × Node)} {n : Node},
    n ∈ allEntries entries → n.all ⊆ allEntries entries
  | [], _, h => absurd h List.not_mem_nil
  | (key, value) :: rest, n, h => by
      rcases List.mem_append.mp h with h | h
      · refine List.subset_append_of_subset_left _ ?_
        rcases List.mem_append.mp h with h | h
        · exact List.subset_append_of_subset_left _ (all_subset h)
        · exact List.subset_append_of_subset_right _ (all_subset h)
      · exact List.subset_append_of_subset_right _ (all_subset_entries h)

end

/-- The nodes of an element are inside the sequence. -/
theorem subset_allItems {items : List Node} {item : Node} (h : item ∈ items) :
    item.all ⊆ allItems items := by
  induction items with
  | nil => exact absurd h List.not_mem_nil
  | cons first rest ih =>
      rcases List.mem_cons.mp h with rfl | h
      · exact List.subset_append_left _ _
      · exact List.subset_append_of_subset_right _ (ih h)

/-- The nodes of a value are inside the mapping. -/
theorem subset_allEntries {entries : List (Node × Node)} {e : Node × Node} (h : e ∈ entries) :
    e.2.all ⊆ allEntries entries := by
  induction entries with
  | nil => exact absurd h List.not_mem_nil
  | cons first rest ih =>
      rcases List.mem_cons.mp h with rfl | h
      · exact List.subset_append_of_subset_left _ (List.subset_append_right _ _)
      · exact List.subset_append_of_subset_right _ (ih h)

/-- Whether no scalar in a tree spells a number beyond the finite ones. -/
def SpellsFinite (root : Node) : Prop := ∀ n ∈ root.all, n.IsFinite

/-- What a sequence does not spell its elements do not. -/
theorem SpellsFinite.items {anchor : Option Nat} {tag : Option String} {items : List Node}
    (h : SpellsFinite (.sequence anchor tag items)) : ∀ item ∈ items, item.SpellsFinite :=
  fun _ hitem n hn => h n (List.mem_cons_of_mem _ (subset_allItems hitem hn))

/-- What a mapping does not spell its values do not. -/
theorem SpellsFinite.values {anchor : Option Nat} {tag : Option String}
    {entries : List (Node × Node)} (h : SpellsFinite (.mapping anchor tag entries)) :
    ∀ e ∈ entries, e.2.SpellsFinite :=
  fun _ he n hn => h n (List.mem_cons_of_mem _ (subset_allEntries he hn))

/-- What a document does not spell its anchored nodes do not. -/
theorem SpellsFinite.anchored {root : Node} (h : root.SpellsFinite) :
    ∀ e ∈ root.anchored, e.2.SpellsFinite := by
  intro e he n hn
  obtain ⟨target, htarget, heq⟩ := List.mem_filterMap.mp (List.mem_reverse.mp he)
  obtain ⟨_, -, rfl⟩ := Option.map_eq_some_iff.mp heq
  exact h n (all_subset htarget hn)

end Node

/-- A run of two steps is a run of the first and one of the second. -/
theorem exists_of_run_bind {σ α β : Type} {x : StateT σ Option α} {f : α → StateT σ Option β}
    {s : σ} {r : β × σ} (h : (x >>= f).run s = some r) :
    ∃ a s', x.run s = some (a, s') ∧ (f a).run s' = some r := by
  obtain ⟨⟨a, s'⟩, hx, hf⟩ := Option.bind_eq_some_iff.mp h
  exact ⟨a, s', hx, hf⟩

/-- Every result of a run over a list is that of a run on one of its elements. -/
theorem exists_mem_of_run_mapM {σ α β : Type} {f : α → StateT σ Option β} {xs : List α}
    {s s' : σ} {ys : List β} (h : (xs.mapM f).run s = some (ys, s')) :
    ∀ y ∈ ys, ∃ x ∈ xs, ∃ t t', (f x).run t = some (y, t') := by
  induction xs generalizing s s' ys with
  | nil =>
      obtain rfl : [] = ys := (Prod.mk.inj (Option.some.inj h)).1
      exact fun _ hy => absurd hy List.not_mem_nil
  | cons x rest ih =>
      rw [List.mapM_cons] at h
      obtain ⟨y, s₁, hy, h⟩ := exists_of_run_bind h
      obtain ⟨ys', s₂, hys', h⟩ := exists_of_run_bind h
      obtain rfl : y :: ys' = ys := (Prod.mk.inj (Option.some.inj h)).1
      refine List.forall_mem_cons.mpr ⟨⟨x, List.mem_cons_self, s, s₁, hy⟩, fun z hz => ?_⟩
      obtain ⟨x', hx', hread⟩ := ih hys' z hz
      exact ⟨x', List.mem_cons_of_mem _ hx', hread⟩

namespace Part

/-- Whether no scalar that is read in a part spells a number beyond the finite ones. -/
structure SpellsFinite (p : Part) : Prop where
  node : p.node.SpellsFinite
  anchored : ∀ e ∈ p.anchored, e.2.SpellsFinite

section Values

variable {anchored : List (Nat × Node)} (hanchored : ∀ e ∈ anchored, e.2.SpellsFinite)
include hanchored

/-- Following an alias leads to an anchored node. -/
theorem spellsFinite_of_follow {n n' : Node} {s s' : Nat} (hn : n.SpellsFinite)
    (h : (follow anchored n).run s = some (n', s')) : n'.SpellsFinite := by
  cases n with
  | aliasOf id =>
      cases s with
      | zero => exact nomatch h
      | succ left =>
          cases hlookup : anchored.lookup id with
          | none =>
              rw [StateT.run, follow, hlookup] at h
              exact nomatch h
          | some n =>
              rw [StateT.run, follow, hlookup] at h
              obtain ⟨rfl, rfl⟩ := Prod.mk.inj (Option.some.inj h)
              exact hanchored _ (mem_of_lookup hlookup)
  | _ =>
      obtain ⟨rfl, rfl⟩ := Prod.mk.inj (Option.some.inj h)
      exact hn

/-- The typed value of a node without numbers beyond the finite ones, in itself or behind its
aliases, has finite numbers only. -/
theorem everywhere_datumOf {depth : Nat} {n : Node} (hn : n.SpellsFinite) {s s' : Nat} {d : Datum}
    (h : (datumOf anchored depth n).run s = some (d, s')) :
    d.Everywhere Datum.HasFiniteNumber := by
  have hscalar {anchor : Option Nat} {tag : Option String} {style : Style} {text : String}
      (hn : Node.SpellsFinite (.scalar anchor tag style text)) {s s' : Nat} {d : Datum}
      (h : (StateT.lift (CoreSchema.datum? tag style text)).run s = some (d, s')) :
      d.Everywhere Datum.HasFiniteNumber := by
    obtain ⟨d', hd, heq⟩ := Option.bind_eq_some_iff.mp h
    obtain ⟨rfl, rfl⟩ := Prod.mk.inj (Option.some.inj heq)
    refine CoreSchema.everywhere_datum? hd fun x hx => ?_
    exact hn _ (List.mem_singleton_self _) x (hd.trans (congrArg some hx))
  induction depth generalizing n s s' d with
  | zero =>
      rw [datumOf] at h
      obtain ⟨n', _, hfollow, h⟩ := exists_of_run_bind h
      have hn' := spellsFinite_of_follow hanchored hn hfollow
      cases n' with
      | scalar => exact hscalar hn' h
      | _ => exact nomatch h
  | succ depth ih =>
      rw [datumOf] at h
      obtain ⟨n', _, hfollow, h⟩ := exists_of_run_bind h
      have hn' := spellsFinite_of_follow hanchored hn hfollow
      cases n' with
      | scalar => exact hscalar hn' h
      | aliasOf => exact nomatch h
      | sequence anchor tag items =>
          dsimp only at h
          split at h
          · exact nomatch h
          obtain ⟨ds, _, hds, heq⟩ := exists_of_run_bind h
          obtain ⟨rfl, rfl⟩ := Prod.mk.inj (Option.some.inj heq)
          refine .intro nofun fun part hpart => ?_
          obtain ⟨item, hitem, _, _, hread⟩ := exists_mem_of_run_mapM hds part hpart
          exact ih (hn'.items item hitem) hread
      | mapping anchor tag entries =>
          dsimp only at h
          split at h
          · exact nomatch h
          obtain ⟨ds, _, hds, heq⟩ := exists_of_run_bind h
          obtain ⟨rfl, rfl⟩ := Prod.mk.inj (Option.some.inj heq)
          refine .intro nofun (List.forall_mem_map.mpr fun pair hpair => ?_)
          obtain ⟨e, he, _, _, hread⟩ := exists_mem_of_run_mapM hds pair hpair
          obtain ⟨key, _, -, hread⟩ := exists_of_run_bind hread
          obtain ⟨value, _, hvalue, heq⟩ := exists_of_run_bind hread
          obtain ⟨rfl, rfl⟩ := Prod.mk.inj (Option.some.inj heq)
          exact ih (hn'.values e he) hvalue

end Values

/-- The node that a part stands for is one of the document. -/
theorem SpellsFinite.target {p : Part} (hp : p.SpellsFinite) {n : Node}
    (h : target? p.anchored p.node = some n) : n.SpellsFinite := by
  unfold target? at h
  split at h
  · exact hp.anchored _ (mem_of_lookup h)
  · exact Option.some.inj h ▸ hp.node

/-- So are the nodes of the entries of a part. -/
theorem SpellsFinite.entries {p : Part} (hp : p.SpellsFinite) {entries : List (String × Part)}
    (h : p.entries? = some entries) : ∀ e ∈ entries, e.2.SpellsFinite := by
  rw [entries?] at h
  split at h
  · obtain rfl := Option.some.inj h
    exact fun _ he => absurd he List.not_mem_nil
  · obtain ⟨n, hn, h⟩ := Option.bind_eq_some_iff.mp h
    have htarget := hp.target hn
    split at h
    · split at h
      · cases h
      · intro e he
        obtain ⟨⟨key, value⟩, hpair, hread⟩ := exists_mem_of_mapM h he
        obtain ⟨_, -, rfl⟩ := Option.map_eq_some_iff.mp hread
        exact ⟨htarget.values _ hpair, hp.anchored⟩
    · cases h

/-- A part that is present stands for itself. -/
theorem eq_of_present? {p p' : Part} (h : p.present? = some (some p')) : p = p' := by
  obtain ⟨n, -, h⟩ := Option.bind_eq_some_iff.mp h
  split at h
  · split at h
    · obtain h := Option.some.inj h
      split at h
      · exact nomatch h
      · exact Option.some.inj h
    · split at h
      · exact Option.some.inj (Option.some.inj h)
      split at h
      · exact nomatch Option.some.inj h
      · exact nomatch h
  · exact Option.some.inj (Option.some.inj h)

/-- Reading a YAML text asks of each part that no scalar in it spells a number that is not finite.
-/
theorem inherited : Inherited SpellsFinite Datum.HasFiniteNumber where
  present hp h := eq_of_present? h ▸ hp
  entries hp h := hp.entries h
  fields hp h := by
    obtain ⟨entries, hentries, hfields⟩ := Option.bind_eq_some_iff.mp h
    exact fun e he => hp.entries hentries e (Fields.subset_of_ofEntries? hfields he)
  datum hp h := by
    obtain ⟨⟨d, _⟩, hrun, rfl⟩ := Option.map_eq_some_iff.mp h
    exact everywhere_datumOf hp.anchored hp.node hrun

/-- A part that is the whole of a text has no other anchored nodes than those of its own. -/
theorem spellsFinite_of_read? {text : String} {p : Part} (h : read? text = some p)
    (hfinite : p.node.SpellsFinite) : p.SpellsFinite := by
  obtain ⟨root, -, rfl⟩ := Option.map_eq_some_iff.mp h
  exact ⟨hfinite, Node.SpellsFinite.anchored hfinite⟩

end Part

end Yaml

/-! ### Arguments of limits -/

/-- **Limits of numbers.** For a document that is read from a text, the text of the validator of a
number is made of its rules and their arguments. All these arguments are decimals, for every number
in the shape of every schema of the document, if and only if its bounds are finite; so they are if
the text is JSON, and if it is YAML in which no scalar spells an infinite number or one that is
none. -/
theorem Document.decimal_limits {format : Format} {text : String} {d : Document}
    (h : Document.ofText? format text = some d) :
    (∀ rules binding, rules.enum = [] → (Validator.ofNumber rules).render binding =
      "z.number()" ++ String.join ((Validator.ofNumber rules).checks.map fun check =>
        "." ++ check.method ++ "(" ++ Text.separated ", " check.arguments ++ ")")) ∧
    (∀ s ∈ d.schemas, (Shape.ofSchema s).Everywhere Shape.HasDecimalLimits ↔
      (Shape.ofSchema s).Everywhere Shape.HasFiniteBounds) ∧
    (format = .json → ∀ s ∈ d.schemas, (Shape.ofSchema s).Everywhere Shape.HasDecimalLimits) ∧
    (format = .yaml → ∀ part, Yaml.Part.read? text = some part → part.node.SpellsFinite →
      ∀ s ∈ d.schemas, (Shape.ofSchema s).Everywhere Shape.HasDecimalLimits) := by
  refine ⟨fun rules binding henum => ?_, fun s _ => ?_, ?_, ?_⟩
  · rw [Validator.ofNumber, henum, List.isEmpty_nil, if_pos rfl, Validator.render_number,
      Validator.checks]
  · exact ⟨.imp fun s => s.hasDecimalLimits_iff.mp, .imp fun s => s.hasDecimalLimits_iff.mpr⟩
  · rintro rfl
    obtain ⟨tree, -, hread⟩ := Option.bind_eq_some_iff.mp h
    exact hasDecimalLimits_of_read? Json.Tree.inherited trivial hread
  · rintro rfl part hpart hfinite
    obtain ⟨part', hpart', hread⟩ := Option.bind_eq_some_iff.mp h
    obtain rfl := Option.some.inj (hpart.symm.trans hpart')
    exact hasDecimalLimits_of_read? Yaml.Part.inherited
      (Yaml.Part.spellsFinite_of_read? hpart hfinite) hread

/-- The lines of a document whose one component is a number with the given minimum. -/
def Yaml.weightText (minimum : String) : String :=
  "components:\n  schemas:\n    Weight:\n      type: number\n      minimum: " ++ minimum ++ "\n"

/-- The tokens of these lines. -/
def Yaml.weightTokens (minimum : String) : List Token :=
  [.blockMappingStart, .key, .scalar .plain "components", .value,
    .blockMappingStart, .key, .scalar .plain "schemas", .value,
    .blockMappingStart, .key, .scalar .plain "Weight", .value,
    .blockMappingStart, .key, .scalar .plain "type", .value, .scalar .plain "number",
    .key, .scalar .plain "minimum", .value, .scalar .plain minimum,
    .blockEnd, .blockEnd, .blockEnd, .blockEnd]

/-- The node of these lines. -/
def Yaml.weightNode (minimum : String) : Node :=
  let word (text : String) : Node := .scalar none none .plain text
  .mapping none none [(word "components", .mapping none none [(word "schemas",
    .mapping none none [(word "Weight", .mapping none none [(word "type", word "number"),
      (word "minimum", word minimum)])])])]

/-- These lines are read as that node, whatever number stands there. -/
theorem Yaml.read?_weightText (minimum : String)
    (h : tokens? (weightText minimum) = some (weightTokens minimum)) :
    Part.read? (weightText minimum) = some (.ofRoot (weightNode minimum)) := by
  have hnode : Node.ofTokens? (weightTokens minimum) = some (weightNode minimum) := by
    rw [weightTokens, weightNode]
    cbv
  rw [Part.read?, h, Option.bind_some, hnode]
  rfl

/-- A document whose one component is a number of at least a half. -/
theorem Document.decimal_limits_half :
    ∃ d, Document.ofText? .yaml (Yaml.weightText "0.5") = some d ∧
      (∀ s ∈ d.schemas, (Shape.ofSchema s).Everywhere Shape.HasDecimalLimits) ∧
      d.schemas.map (fun s => (Validator.ofShape (fun _ => .any) (Shape.ofSchema s)).render id) =
        ["z.number().min(0.5)"] := by
  have hread := Yaml.read?_weightText "0.5" (by decide +kernel)
  have hword {text : String} {d : Datum}
      (hd : Yaml.CoreSchema.datum? none .plain text = some d) (hfinite : d.HasFiniteNumber) :
      Yaml.Node.IsFinite (.scalar none none .plain text) :=
    fun x hx => hfinite x (by rw [Option.some.inj (hd.symm.trans hx)]; rfl)
  have hfinite : (Yaml.weightNode "0.5").SpellsFinite := by
    simp only [Yaml.Node.SpellsFinite, Yaml.weightNode, Yaml.Node.all, Yaml.Node.allEntries,
      List.append_nil, List.nil_append, List.cons_append, List.forall_mem_cons]
    refine ⟨trivial, hword rfl nofun, trivial, hword rfl nofun, trivial, hword rfl nofun, trivial,
      hword rfl nofun, hword rfl nofun, hword rfl nofun, hword rfl (d := .float _) ?_, nofun⟩
    exact Datum.hasFiniteNumber_float rfl
  obtain ⟨d, hd, hrender⟩ : ∃ d, Document.ofText? .yaml (Yaml.weightText "0.5") = some d ∧
      d.schemas.map (fun s => (Validator.ofShape (fun _ => .any) (Shape.ofSchema s)).render id) =
        ["z.number().min(0.5)"] := by
    rw [Document.ofText?, hread]
    exact ⟨_, rfl, by decide +kernel⟩
  exact ⟨d, hd, (decimal_limits hd).2.2.2 rfl _ hread hfinite, hrender⟩

/-- An infinite minimum is written as a word that is no decimal. -/
theorem Document.infinite_limit :
    ∃ d, Document.ofText? .yaml (Yaml.weightText ".inf") = some d ∧
      (∃ s ∈ d.schemas, ¬ (Shape.ofSchema s).Everywhere Shape.HasDecimalLimits) ∧
      d.schemas.map (fun s => (Validator.ofShape (fun _ => .any) (Shape.ofSchema s)).render id) =
        ["z.number().min(inf)"] := by
  have hread := Yaml.read?_weightText ".inf" (by decide +kernel)
  rw [Document.ofText?, hread]
  refine ⟨_, rfl, ⟨_, List.mem_singleton_self _, fun h => ?_⟩, by decide +kernel⟩
  have hbound := (Shape.hasDecimalLimits_iff _).mp h.own rfl (.infinite false) List.mem_cons_self
  exact nomatch hbound

end OpenApiZod
