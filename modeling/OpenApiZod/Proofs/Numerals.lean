import Mathlib.Data.List.Basic
import Mathlib.Tactic.Common
import OpenApiZod.Decimal.Notation
import OpenApiZod.Json.Tree

/-!
# Numerals

All finite numbers are spelt the way JSON spells them, bounds and literals alike: digits without a
leading zero, after them perhaps a point with digits and an exponent. `Json.readNumber?` reads such
a numeral to its end (`IsNumeral.read`). Bounds have no exponent (`isDecimal_plainText_iff`).
-/

namespace OpenApiZod

/-! ### The spelling of numbers -/

/-- Digits before the point. -/
structure IsWhole (cs : List Char) : Prop where
  ne_nil : cs ≠ []
  digits : ∀ c ∈ cs, c.isDigit = true
  leading : cs.head? = some '0' → cs.length = 1

/-- Nothing, or a point with digits after it. -/
inductive IsFraction : List Char → Prop
  | absent : IsFraction []
  | digits {ds : List Char} (hne : ds ≠ []) (hdigits : ∀ c ∈ ds, c.isDigit = true) :
      IsFraction ('.' :: ds)

/-- Nothing, or an exponent with its sign. -/
inductive IsExponent : List Char → Prop
  | absent : IsExponent []
  | digits {sign : Char} {ds : List Char} (hsign : sign = '-' ∨ sign = '+') (hne : ds ≠ [])
      (hdigits : ∀ c ∈ ds, c.isDigit = true) : IsExponent ('e' :: sign :: ds)

/-- A number without its sign as JSON spells it. -/
inductive IsMagnitude : List Char → Prop
  | parts {whole fraction exponent : List Char} (hwhole : IsWhole whole)
      (hfraction : IsFraction fraction) (hexponent : IsExponent exponent) :
      IsMagnitude (whole ++ (fraction ++ exponent))

/-- A number as JSON spells it. -/
inductive IsNumeral : List Char → Prop
  | signed (negative : Bool) {magnitude : List Char} (h : IsMagnitude magnitude) :
      IsNumeral (Decimal.signText negative ++ magnitude)

/-- A number without its sign and without an exponent. -/
inductive IsPositional : List Char → Prop
  | parts {whole fraction : List Char} (hwhole : IsWhole whole) (hfraction : IsFraction fraction) :
      IsPositional (whole ++ fraction)

/-- A number without an exponent. -/
inductive IsDecimal : List Char → Prop
  | signed (negative : Bool) {magnitude : List Char} (h : IsPositional magnitude) :
      IsDecimal (Decimal.signText negative ++ magnitude)

/-- What follows cannot be taken for more of a numeral. -/
def EndsNumeral (rest : List Char) : Prop :=
  ∀ c ∈ rest.head?, c.isDigit = false ∧ c ≠ '.' ∧ c ≠ 'e' ∧ c ≠ 'E'

/-! ### Reading numerals -/

/-- A run of characters ends where a character of another kind follows. -/
theorem takeWhile_dropWhile_append {p : Char → Bool} {cs rest : List Char}
    (h : ∀ c ∈ cs, p c = true) (hrest : ∀ c ∈ rest.head?, p c = false) :
    (cs ++ rest).takeWhile p = cs ∧ (cs ++ rest).dropWhile p = rest := by
  rw [List.takeWhile_append_of_pos h, List.dropWhile_append_of_pos h]
  cases rest with
  | nil => exact ⟨List.append_nil cs, rfl⟩
  | cons c rest =>
      have hc : p c = false := hrest c rfl
      rw [List.takeWhile_cons, List.dropWhile_cons, hc, if_neg Bool.false_ne_true,
        if_neg Bool.false_ne_true]
      exact ⟨List.append_nil cs, rfl⟩

/-- A run of digits is read up to the first character that is none. -/
theorem spanDigits_append {ds rest : List Char} (hdigits : ∀ c ∈ ds, c.isDigit = true)
    (hrest : ∀ c ∈ rest.head?, c.isDigit = false) :
    Decimal.spanDigits (ds ++ rest) = (ds, rest) := by
  obtain ⟨htake, hdrop⟩ := takeWhile_dropWhile_append hdigits hrest
  rw [Decimal.spanDigits, htake, hdrop]

/-- An exponent is read to its end. -/
theorem IsExponent.read {exponent rest : List Char} (h : IsExponent exponent)
    (hrest : EndsNumeral rest) :
    (exponent = [] ∧ Decimal.exponent? (exponent ++ rest) = none) ∨
      ∃ e, Decimal.exponent? (exponent ++ rest) = some (e, rest) := by
  cases h with
  | absent =>
      refine Or.inl ⟨rfl, ?_⟩
      cases rest with
      | nil => rfl
      | cons c rest =>
          obtain ⟨-, -, he, hE⟩ := hrest c rfl
          exact if_neg (not_or.mpr ⟨he, hE⟩)
  | @digits sign ds hsign hne hdigits =>
      have hspan : Decimal.spanDigits (ds ++ rest) = (ds, rest) :=
        spanDigits_append hdigits fun c hc => (hrest c hc).1
      obtain ⟨d, ds, rfl⟩ := List.exists_cons_of_ne_nil hne
      rw [List.cons_append] at hspan
      refine Or.inr ?_
      rcases hsign with rfl | rfl
      · simp only [Decimal.exponent?, List.cons_append, true_or, if_true, hspan]
        exact ⟨_, rfl⟩
      · simp only [Decimal.exponent?, List.cons_append, true_or, if_true, hspan]
        exact ⟨_, rfl⟩

/-- A fraction is read to its end. -/
theorem IsFraction.read {fraction rest : List Char} (h : IsFraction fraction)
    (hrest : ∀ c ∈ rest.head?, c.isDigit = false ∧ c ≠ '.') :
    ∃ ds, Json.readFraction? (fraction ++ rest) = some (ds, rest) := by
  cases h with
  | absent =>
      refine ⟨none, ?_⟩
      rw [List.nil_append, Json.readFraction?]
      rintro tail rfl
      exact (hrest '.' rfl).2 rfl
  | @digits ds hne hdigits =>
      have hspan : Decimal.spanDigits (ds ++ rest) = (ds, rest) :=
        spanDigits_append hdigits fun c hc => (hrest c hc).1
      refine ⟨some ds, ?_⟩
      rw [List.cons_append, Json.readFraction?, hspan]
      obtain ⟨d, ds, rfl⟩ := List.exists_cons_of_ne_nil hne
      rfl

/-- What follows a fraction cannot be taken for more of it. -/
theorem IsExponent.ends_fraction {exponent rest : List Char} (h : IsExponent exponent)
    (hrest : EndsNumeral rest) :
    ∀ c ∈ (exponent ++ rest).head?, c.isDigit = false ∧ c ≠ '.' := by
  cases h with
  | absent => exact fun c hc => ⟨(hrest c hc).1, (hrest c hc).2.1⟩
  | digits =>
      rintro c hc
      obtain rfl := Option.some.inj hc
      decide

/-- What follows the whole part cannot be taken for more of it. -/
theorem IsFraction.ends_whole {fraction rest : List Char} (h : IsFraction fraction)
    (hrest : ∀ c ∈ rest.head?, c.isDigit = false ∧ c ≠ '.') :
    ∀ c ∈ (fraction ++ rest).head?, c.isDigit = false := by
  cases h with
  | absent => exact fun c hc => (hrest c hc).1
  | digits =>
      rintro c hc
      obtain rfl := Option.some.inj hc
      decide

/-- A magnitude is read to its end. -/
theorem IsMagnitude.read (negative : Bool) {cs rest : List Char} (h : IsMagnitude cs)
    (hrest : EndsNumeral rest) :
    ∃ n, Json.readMagnitude? negative (cs ++ rest) = some (n, rest) := by
  obtain ⟨hwhole, hfraction, hexponent⟩ := h
  rename_i whole fraction exponent
  simp only [List.append_assoc]
  have hafter := hexponent.ends_fraction hrest
  have hleading : ¬ (whole = [] ∨ whole.length > 1 ∧ whole.head? = some '0') := by
    rintro (hnil | ⟨hlength, hzero⟩)
    · exact hwhole.ne_nil hnil
    · have := hwhole.leading hzero
      omega
  obtain ⟨ds, hfrac⟩ := hfraction.read hafter
  rw [Json.readMagnitude?, spanDigits_append hwhole.digits (hfraction.ends_whole hafter)]
  simp only [if_neg hleading, hfrac]
  rcases hexponent.read hrest with ⟨rfl, hnone⟩ | ⟨e, hsome⟩
  · have hmark : ¬ (rest.head? = some 'e' ∨ rest.head? = some 'E') := by
      rintro (he | hE)
      · exact (hrest 'e' he).2.2.1 rfl
      · exact (hrest 'E' hE).2.2.2 rfl
    rw [List.nil_append] at hnone
    simp only [List.nil_append, hnone, if_neg hmark]
    cases ds with
    | none => exact ⟨_, rfl⟩
    | some ds => exact ⟨_, rfl⟩
  · simp only [hsome]
    exact ⟨_, rfl⟩

/-- A magnitude starts with a digit. -/
theorem IsMagnitude.exists_cons {cs : List Char} (h : IsMagnitude cs) :
    ∃ c rest, cs = c :: rest ∧ c.isDigit = true := by
  obtain ⟨hwhole, -, -⟩ := h
  obtain ⟨c, rest, rfl⟩ := List.exists_cons_of_ne_nil hwhole.ne_nil
  exact ⟨c, _, rfl, hwhole.digits c List.mem_cons_self⟩

/-- A numeral is read to its end. -/
theorem IsNumeral.read {cs rest : List Char} (h : IsNumeral cs) (hrest : EndsNumeral rest) :
    ∃ n, Json.readNumber? (cs ++ rest) = some (n, rest) := by
  obtain ⟨negative, hmagnitude⟩ := h
  obtain ⟨n, hn⟩ := hmagnitude.read negative hrest
  refine ⟨n, ?_⟩
  cases negative with
  | true => exact hn
  | false =>
      obtain ⟨c, cs, rfl, hc⟩ := hmagnitude.exists_cons
      have hminus : c ≠ '-' := by
        rintro rfl
        exact absurd hc (by decide)
      rw [← hn]
      exact Json.readNumber?.eq_2 _ fun tail heq => hminus (List.cons.inj heq).1

/-- A numeral starts with a digit or a minus sign. -/
theorem IsNumeral.exists_cons {cs : List Char} (h : IsNumeral cs) :
    ∃ c rest, cs = c :: rest ∧ (c.isDigit = true ∨ c = '-') := by
  obtain ⟨negative, hmagnitude⟩ := h
  cases negative with
  | true => exact ⟨'-', _, rfl, Or.inr rfl⟩
  | false =>
      obtain ⟨c, rest, rfl, hc⟩ := hmagnitude.exists_cons
      exact ⟨c, rest, rfl, Or.inl hc⟩

/-! ### The numerals that are written -/

/-- A number without an exponent is a magnitude. -/
theorem IsPositional.isMagnitude {cs : List Char} (h : IsPositional cs) : IsMagnitude cs := by
  obtain ⟨hwhole, hfraction⟩ := h
  rename_i whole fraction
  have hparts := IsMagnitude.parts hwhole hfraction IsExponent.absent
  rwa [List.append_nil] at hparts

/-- Every decimal is a numeral. -/
theorem IsDecimal.isNumeral {cs : List Char} : IsDecimal cs → IsNumeral cs
  | .signed negative h => .signed negative h.isMagnitude

/-- A decimal starts with a digit, or with a minus sign and a digit. -/
theorem IsDecimal.any_isDigit {cs : List Char} (h : IsDecimal cs) :
    (cs.take 2).any Char.isDigit = true := by
  obtain ⟨negative, hmagnitude⟩ := h
  obtain ⟨c, rest, rfl, hc⟩ := hmagnitude.isMagnitude.exists_cons
  cases negative with
  | true => exact List.any_eq_true.mpr ⟨c, List.mem_cons_of_mem '-' List.mem_cons_self, hc⟩
  | false => exact List.any_eq_true.mpr ⟨c, List.mem_cons_self, hc⟩

/-- A whole number is positional, its fraction being absent. -/
theorem IsWhole.isPositional {whole : List Char} (h : IsWhole whole) : IsPositional whole := by
  have hparts := IsPositional.parts h IsFraction.absent
  rwa [List.append_nil] at hparts

/-- So is a whole number with digits after a point. -/
theorem IsWhole.point {whole ds : List Char} (h : IsWhole whole) (hne : ds ≠ [])
    (hdigits : ∀ c ∈ ds, c.isDigit = true) : IsPositional (whole ++ '.' :: ds) :=
  .parts h (.digits hne hdigits)

/-- A single digit is a whole number. -/
theorem isWhole_singleton {c : Char} (h : c.isDigit = true) : IsWhole [c] := by
  refine ⟨List.cons_ne_nil _ _, fun d hd => ?_, fun _ => rfl⟩
  rwa [List.mem_singleton.mp hd]

/-- Digits of which the first counts. -/
structure Significant (ds : List Char) : Prop where
  ne_nil : ds ≠ []
  digits : ∀ c ∈ ds, c.isDigit = true
  leading : ds.head? ≠ some '0'

/-- Significant digits make a whole number. -/
theorem Significant.isWhole {ds : List Char} (h : Significant ds) : IsWhole ds :=
  ⟨h.ne_nil, h.digits, fun hzero => absurd hzero h.leading⟩

/-- Significant digits stay significant when more digits follow. -/
theorem Significant.append {ds es : List Char} (h : Significant ds)
    (hes : ∀ c ∈ es, c.isDigit = true) : Significant (ds ++ es) := by
  refine ⟨List.append_ne_nil_of_left_ne_nil h.ne_nil es, fun c hc => ?_, ?_⟩
  · exact (List.mem_append.mp hc).elim (h.digits c) (hes c)
  · rw [List.head?_append_of_ne_nil _ h.ne_nil]
    exact h.leading

/-- The first of significant digits are significant. -/
theorem Significant.take {ds : List Char} (h : Significant ds) {n : Nat} (hn : 0 < n) :
    Significant (ds.take n) := by
  have hne : n ≠ 0 := by omega
  refine ⟨fun hnil => ?_, fun c hc => h.digits c (List.mem_of_mem_take hc), ?_⟩
  · rcases List.take_eq_nil_iff.mp hnil with hzero | hnil
    · exact hne hzero
    · exact h.ne_nil hnil
  · rw [List.head?_take, if_neg hne]
    exact h.leading

/-- The digits of a natural number are digits. -/
theorem digits_digitsOf (n : Nat) : ∀ c ∈ Decimal.digitsOf n, c.isDigit = true :=
  fun _ hc => Nat.isDigit_of_mem_toDigits (by decide) (by decide) hc

/-- The digits of a positive number start with one that counts. -/
theorem significant_digitsOf {n : Nat} (h : 0 < n) : Significant (Decimal.digitsOf n) := by
  refine ⟨Nat.toDigits_ne_nil, digits_digitsOf n, ?_⟩
  have hdigit : ∀ d : Fin 10, 0 < d.val → d.val.digitChar ≠ '0' := by decide
  rw [Decimal.digitsOf]
  induction n using Nat.strongRecOn with
  | ind n ih =>
      rw [Nat.toDigits_eq_if (by decide)]
      split
      · rename_i hlt
        rw [List.head?_cons]
        exact fun heq => hdigit ⟨n, hlt⟩ h (Option.some.inj heq)
      · rw [List.head?_append_of_ne_nil _ Nat.toDigits_ne_nil]
        exact ih (n / 10) (by omega) (by omega)

/-- The digits of a natural number make a whole number, zero included. -/
theorem isWhole_digitsOf (n : Nat) : IsWhole (Decimal.digitsOf n) := by
  rcases Nat.eq_zero_or_pos n with rfl | h
  · exact isWhole_singleton (by decide)
  · exact (significant_digitsOf h).isWhole

/-- Zeros are digits. -/
theorem digits_zeros (n : Nat) : ∀ c ∈ Decimal.zeros n, c.isDigit = true := by
  intro c hc
  rw [List.eq_of_mem_replicate hc]
  decide

/-- What is written after `0.` when the point stands before the first digit. -/
theorem isPositional_below_one {ds : List Char} (h : Significant ds) (n : Nat) :
    IsPositional ("0.".toList ++ Decimal.zeros n ++ ds) := by
  have hzero : IsWhole ['0'] := isWhole_singleton (by decide)
  have hne : Decimal.zeros n ++ ds ≠ [] := List.append_ne_nil_of_right_ne_nil _ h.ne_nil
  have hdigits : ∀ c ∈ Decimal.zeros n ++ ds, c.isDigit = true := fun c hc =>
    (List.mem_append.mp hc).elim (digits_zeros n c) (h.digits c)
  rw [List.append_assoc]
  exact hzero.point hne hdigits

/-- Digits with a point inside them. -/
theorem isPositional_split {ds : List Char} (h : Significant ds) {n : Nat} (hn : 0 < n)
    (hlength : n < ds.length) : IsPositional (ds.take n ++ '.' :: ds.drop n) := by
  refine (h.take hn).isWhole.point ?_ fun c hc => h.digits c (List.mem_of_mem_drop hc)
  intro hnil
  have := List.drop_eq_nil_iff.mp hnil
  omega

/-- Significant digits are written positionally as a positional number, wherever the point is. -/
theorem isPositional_positional {ds : List Char} (h : Significant ds) (point : Int) :
    IsPositional (Decimal.positional ds point) := by
  rw [Decimal.positional]
  split
  · exact isPositional_below_one h _
  · split
    · exact (h.append (digits_zeros _)).isWhole.isPositional
    · exact isPositional_split h (by omega) (by omega)

/-- Digits that show by `.0` where no digit stands after the point. -/
theorem isPositional_positional_point {ds : List Char} (h : Significant ds) {point : Int}
    (hpoint : 0 < point) :
    IsPositional (Decimal.positional ds point ++
      if ds.length ≤ point.toNat then ".0".toList else []) := by
  rw [Decimal.positional, if_neg (by omega)]
  split
  · exact (h.append (digits_zeros _)).isWhole.point (List.cons_ne_nil '0' [])
        (List.forall_mem_singleton.mpr (by decide))
  · rw [List.append_nil]
    exact isPositional_split h (by omega) (by omega)

/-- Significant digits are written scientifically as a magnitude with an exponent. -/
theorem isMagnitude_scientific {ds : List Char} (h : Significant ds) (point : Int) :
    IsMagnitude (Decimal.scientific ds point) := by
  obtain ⟨d, ds, rfl⟩ := List.exists_cons_of_ne_nil h.ne_nil
  have hsign : (if point - 1 < 0 then '-' else '+') = '-' ∨
      (if point - 1 < 0 then '-' else '+') = '+' := by
    split
    · exact Or.inl rfl
    · exact Or.inr rfl
  have hexponent : IsExponent ('e' :: (if point - 1 < 0 then '-' else '+') ::
      Decimal.digitsOf (point - 1).natAbs) :=
    .digits hsign Nat.toDigits_ne_nil (digits_digitsOf _)
  have hfirst : IsWhole [d] := isWhole_singleton (h.digits d List.mem_cons_self)
  simp only [Decimal.scientific, List.append_assoc]
  cases ds with
  | nil => exact .parts hfirst .absent hexponent
  | cons e ds =>
      have hrest : ∀ c ∈ e :: ds, c.isDigit = true := fun c hc =>
        h.digits c (List.mem_cons_of_mem d hc)
      exact .parts hfirst (.digits (List.cons_ne_nil e ds) hrest) hexponent

/-! ### Numbers of validators -/

/-- No grid that is searched for the shortest decimal of a positive number offers zero. -/
theorem Shortest.digits_pos_of_onGrid {tie : Shortest.Tie} {mantissa : Nat} {exponent grid : Int}
    {d : Shortest.Decimal} (hmantissa : 0 < mantissa)
    (h : Shortest.onGrid tie mantissa exponent grid = some d) : 0 < d.digits := by
  unfold Shortest.onGrid at h
  extract_lets binary quarter unit value low high rounds below above down up chosen at h
  obtain ⟨n, hn, rfl⟩ := Option.map_eq_some_iff.mp h
  have hquarter : 0 < quarter := Nat.mul_pos (Nat.pow_pos (by decide)) (Nat.pow_pos (by decide))
  have hlow : 0 < low := by
    have hvalue : 4 * quarter ≤ value := Nat.mul_le_mul_right quarter (by omega)
    have hstep : (if mantissa = Nat.pow 2 52 ∧ exponent > -1074 then 1 else 2) * quarter ≤
        2 * quarter := Nat.mul_le_mul_right quarter (by split <;> omega)
    show 0 < value - _
    omega
  have hzero : rounds 0 = false := by
    show (if mantissa % 2 = 0 then decide (low ≤ 0 * unit) && decide (0 * unit ≤ high)
      else decide (low < 0 * unit) && decide (0 * unit < high)) = false
    have hle : ¬ low ≤ 0 := by omega
    have hlt : ¬ low < 0 := by omega
    simp only [Nat.zero_mul, hle, hlt, decide_false, Bool.false_and, ite_self]
  have hchosen : n = below ∧ rounds below = true ∨ n = above := by
    dsimp only [chosen] at hn
    split at hn
    · rename_i hrounds _
      split at hn
      · exact Or.inl ⟨(Option.some.inj hn).symm, hrounds⟩
      split at hn
      · exact Or.inr (Option.some.inj hn).symm
      split at hn
      · exact Or.inr (Option.some.inj hn).symm
      split at hn
      · exact Or.inl ⟨(Option.some.inj hn).symm, hrounds⟩
      · exact Or.inr (Option.some.inj hn).symm
    · rename_i hrounds _
      exact Or.inl ⟨(Option.some.inj hn).symm, hrounds⟩
    · exact Or.inr (Option.some.inj hn).symm
    · exact nomatch hn
  rcases hchosen with ⟨rfl, hrounds⟩ | rfl
  · refine Nat.pos_of_ne_zero fun hbelow : below = 0 => ?_
    rw [hbelow, hzero] at hrounds
    exact Bool.false_ne_true hrounds
  · exact Nat.succ_pos below

/-- The shortest decimal of a positive number has digits that count, or it is zero. -/
theorem Shortest.digits_pos_or (tie : Shortest.Tie) {mantissa : Nat} (exponent : Int)
    (hmantissa : 0 < mantissa) :
    0 < (Shortest.digits tie mantissa exponent).digits ∨
      Shortest.digits tie mantissa exponent = ⟨0, 0⟩ := by
  unfold Shortest.digits
  extract_lets coarsest
  cases hfind : (List.range 24).findSome? fun (i : Nat) =>
      Shortest.onGrid tie mantissa exponent (coarsest - (i : Int)) with
  | none => exact Or.inr rfl
  | some d =>
      obtain ⟨i, -, hd⟩ := List.exists_of_findSome?_eq_some hfind
      exact Or.inl (Shortest.digits_pos_of_onGrid hmantissa hd)

/-- A bound is written as a decimal exactly if it is finite; the others are written as words. -/
theorem isDecimal_plainText_iff (x : Binary64) :
    IsDecimal (Decimal.plainText x).toList ↔ x.isFinite = true := by
  cases x with
  | infinite negative =>
      refine iff_of_false (fun h => ?_) Bool.false_ne_true
      cases negative <;> exact absurd h.any_isDigit (by decide)
  | nan =>
      exact iff_of_false (fun h => absurd h.any_isDigit (by decide)) Bool.false_ne_true
  | finite negative mantissa exponent =>
      refine iff_of_true ?_ rfl
      rw [Decimal.plainText, String.toList_ofList]
      refine .signed negative ?_
      split
      · exact (isWhole_singleton (by decide)).isPositional
      · rename_i hmantissa
        rcases Shortest.digits_pos_or .away exponent (Nat.pos_of_ne_zero hmantissa) with
          hpos | hzero
        · exact isPositional_positional (significant_digitsOf hpos) _
        · rw [hzero]
          exact (isWhole_singleton (by decide)).isPositional

/-- A finite bound is written as a numeral. -/
theorem isNumeral_plainText {x : Binary64} (h : x.isFinite = true) :
    IsNumeral (Decimal.plainText x).toList :=
  ((isDecimal_plainText_iff x).mpr h).isNumeral

/-- A finite number of a literal is written as a numeral. -/
theorem isNumeral_jsonText {x : Binary64} (h : x.isFinite = true) :
    IsNumeral (Decimal.jsonText x).toList := by
  cases x with
  | infinite negative => exact absurd h Bool.false_ne_true
  | nan => exact absurd h Bool.false_ne_true
  | finite negative mantissa exponent =>
      have hzero : IsPositional "0.0".toList :=
        (isWhole_singleton (by decide)).point (List.cons_ne_nil '0' [])
        (List.forall_mem_singleton.mpr (by decide))
      rw [Decimal.jsonText, String.toList_ofList]
      refine .signed negative ?_
      split
      · exact hzero.isMagnitude
      · rename_i hmantissa
        rcases Shortest.digits_pos_or .even exponent (Nat.pos_of_ne_zero hmantissa) with
          hpos | hnone
        · have hdigits := significant_digitsOf hpos
          dsimp only
          split
          · exact (isPositional_positional_point hdigits (by omega)).isMagnitude
          split
          · exact (isPositional_positional hdigits _).isMagnitude
          · exact isMagnitude_scientific hdigits _
        · rw [hnone]
          exact hzero.isMagnitude

/-- A natural number is written as a numeral. -/
theorem isNumeral_natural (n : Nat) : IsNumeral (toString n).toList := by
  rw [Nat.toString_eq_ofList_toDigits, String.toList_ofList]
  exact .signed false (isWhole_digitsOf n).isPositional.isMagnitude

/-- So is an integer. -/
theorem isNumeral_integer (n : Int) : IsNumeral (toString n).toList := by
  cases n with
  | ofNat n => exact isNumeral_natural n
  | negSucc n =>
      show IsNumeral ("-" ++ Nat.repr (n + 1)).toList
      have hdigits : (Nat.repr (n + 1)).toList = Decimal.digitsOf (n + 1) := by
        rw [Nat.repr_eq_ofList_toDigits, String.toList_ofList, Decimal.digitsOf]
      rw [String.toList_append, hdigits]
      exact .signed true (isWhole_digitsOf (n + 1)).isPositional.isMagnitude

end OpenApiZod
