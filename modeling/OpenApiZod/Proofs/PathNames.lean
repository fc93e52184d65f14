import OpenApiZod.Proofs.PathSegments

/-!
# Names on a path

A path is its parts with slashes between them (`intercalate_parts`), and a path that goes nowhere
but down leads to the names among its parts (`resolve_join`). So two paths with the same names lead
to one place, and they are equal if neither has a part that stays where it is (`eq_of_names_eq`).

The way of a path is every location that its parts lead through. The way to the directory that holds
a file below a base runs along the way to the base and stays below it from there on
(`way_parent_join`).
-/

namespace OpenApiZod.Path

/-! ### Parts -/

/-- A text that is split at a separator is put together again by it. -/
theorem intercalate_split (separator : Char) (cs : List Char) :
    [separator].intercalate (split separator cs) = cs := by
  induction cs with
  | nil => rfl
  | cons c cs ih =>
      rw [split]
      cases hsplit : split separator cs with
      | nil => exact absurd hsplit (split_ne_nil separator cs)
      | cons piece rest =>
          rw [hsplit] at ih
          split
          · rename_i hc
            rw [List.intercalate_cons_cons, ih, hc]
            rfl
          · cases rest with
            | nil =>
                rw [List.intercalate_singleton] at ih ⊢
                rw [ih]
            | cons other rest =>
                rw [List.intercalate_cons_cons] at ih ⊢
                rw [← ih]
                rfl

/-- A path is its parts with slashes between them. -/
theorem intercalate_parts (path : String) : "/".intercalate (parts path) = path := by
  rw [← String.toList_inj, String.toList_intercalate, parts, List.map_map]
  have hlist : (split '/' path.toList).map (String.toList ∘ String.ofList) =
      split '/' path.toList := by
    simp [Function.comp_def]
  rw [hlist]
  exact intercalate_split '/' path.toList

/-- Paths with the same parts are the same path. -/
theorem parts_injective : Function.Injective parts := by
  intro a b h
  rw [← intercalate_parts a, h, intercalate_parts]

/-- No piece of a text that is split holds the separator. -/
theorem not_mem_of_mem_split {separator : Char} {cs piece : List Char}
    (h : piece ∈ split separator cs) : separator ∉ piece := by
  induction cs generalizing piece with
  | nil =>
      obtain rfl := List.mem_singleton.mp h
      exact List.not_mem_nil
  | cons c cs ih =>
      rw [split] at h
      cases hsplit : split separator cs with
      | nil => exact absurd hsplit (split_ne_nil separator cs)
      | cons first rest =>
          rw [hsplit] at h ih
          by_cases hc : c = separator
          · rw [if_pos hc] at h
            rcases List.mem_cons.mp h with rfl | h
            · exact List.not_mem_nil
            · exact ih h
          · rw [if_neg hc] at h
            rcases List.mem_cons.mp h with rfl | h
            · rw [List.mem_cons, not_or]
              exact ⟨Ne.symm hc, ih List.mem_cons_self⟩
            · exact ih (List.mem_cons_of_mem _ h)

/-- No part of a path holds a slash. -/
theorem not_mem_of_mem_parts {path part : String} (h : part ∈ parts path) : '/' ∉ part.toList := by
  obtain ⟨piece, hpiece, rfl⟩ := List.mem_map.mp h
  rw [String.toList_ofList]
  exact not_mem_of_mem_split hpiece

/-- A path without a slash is its only part. -/
theorem parts_of_not_mem {part : String} (h : '/' ∉ part.toList) : parts part = [part] := by
  rw [parts, split_of_not_mem h, List.map_singleton, String.ofList_toList]

/-- Parts without slashes that are put together by slashes are the parts of the path. -/
theorem parts_intercalate {ps : List String} (hne : ps ≠ []) (h : ∀ p ∈ ps, '/' ∉ p.toList) :
    parts ("/".intercalate ps) = ps := by
  induction ps with
  | nil => exact absurd rfl hne
  | cons p ps ih =>
      have hp : parts p = [p] := parts_of_not_mem (h p List.mem_cons_self)
      cases ps with
      | nil => rw [String.intercalate_singleton, hp]
      | cons q ps =>
          rw [String.intercalate_cons_cons, parts_slash, hp,
            ih (List.cons_ne_nil _ _) fun r hr => h r (List.mem_cons_of_mem _ hr)]
          rfl

/-- Every path has a part. -/
theorem parts_ne_nil (path : String) : parts path ≠ [] := by
  rw [parts, Ne, List.map_eq_nil_iff]
  exact split_ne_nil '/' path.toList

/-- A path starts at the root if its first part is empty and not its only one. -/
theorem isAbsolute_iff {path : String} :
    isAbsolute path = true ↔ ∃ p ps, parts path = "" :: p :: ps := by
  constructor
  · intro h
    rw [isAbsolute, beq_iff_eq, List.head?_eq_some_iff] at h
    obtain ⟨cs, hcs⟩ := h
    have hpath : path = "" ++ "/" ++ String.ofList cs := by
      rw [← String.toList_inj, hcs]
      simp
    have hempty : parts "" = [""] := rfl
    rw [hpath, parts_slash, hempty]
    cases hparts : parts (String.ofList cs) with
    | nil => exact absurd hparts (parts_ne_nil _)
    | cons p ps => exact ⟨p, ps, rfl⟩
  · rintro ⟨p, ps, h⟩
    rw [← intercalate_parts path, h, String.intercalate_cons_cons, isAbsolute]
    simp

/-! ### Names -/

/-- The names among the parts of a path. -/
def names (path : String) : List String := (parts path).filter (! isStay ·)

/-- Parts that never go up lead down by their names. -/
theorem foldl_step {ps : List String} (h : ".." ∉ ps) (here : Location) :
    ps.foldl step here = here ++ ps.filter (! isStay ·) := by
  induction ps generalizing here with
  | nil => simp
  | cons p ps ih =>
      rw [List.mem_cons, not_or] at h
      rw [List.foldl_cons, ih h.2, step, List.filter_cons]
      cases hstay : isStay p with
      | true => simp
      | false => simp [Ne.symm h.1]

/-- A path of two paths has the names of both. -/
theorem names_slash (a b : String) : names (a ++ "/" ++ b) = names a ++ names b := by
  rw [names, parts_slash, List.filter_append, names, names]

/-- A part that holds another character than a dot does not stay, whatever follows. -/
theorem isStay_append {a : String} (h : ∃ c ∈ a.toList, c ≠ '.') (b : String) :
    isStay (a ++ b) = false := by
  obtain ⟨c, hc, hdot⟩ := h
  have hmem : c ∈ (a ++ b).toList := by
    rw [String.toList_append]
    exact List.mem_append_left _ hc
  rw [isStay, Bool.or_eq_false_iff, beq_eq_false_iff_ne, beq_eq_false_iff_ne]
  constructor
  · intro heq
    rw [heq] at hmem
    exact List.not_mem_nil hmem
  · intro heq
    rw [heq] at hmem
    exact hdot (List.mem_singleton.mp hmem)

/-- A plain name does not stay. -/
theorem isStay_of_isPlain {name : String} (h : IsPlain name) : isStay name = false := by
  rw [← String.append_empty (s := name)]
  exact isStay_append h.2 ""

/-- A plain name is its own only name. -/
theorem names_of_isPlain {name : String} (h : IsPlain name) : names name = [name] := by
  rw [names, parts_of_isPlain h, List.filter_singleton, isStay_of_isPlain h]
  rfl

/-- Paths without parts that stay are told apart by their names. -/
theorem eq_of_names_eq {a b : String} (ha : ∀ part ∈ parts a, isStay part = false)
    (hb : ∀ part ∈ parts b, isStay part = false) (h : names a = names b) : a = b := by
  have hnames : ∀ path, (∀ part ∈ parts path, isStay part = false) → names path = parts path :=
    fun path hpath => List.filter_eq_self.mpr fun part hpart => by rw [hpath part hpart]; rfl
  rw [hnames a ha, hnames b hb] at h
  exact parts_injective h

/-- A path goes nowhere but down if it is relative, does not start at the current place and never
goes up. -/
theorem isDescending_iff {path : String} :
    isDescending path = true ↔
      isAbsolute path = false ∧ (parts path).head? ≠ some "." ∧ ".." ∉ parts path := by
  simp [isDescending, and_assoc]

/-- A path that goes nowhere but down starts with a name. -/
theorem exists_name_of_isDescending {path : String} (h : isDescending path = true)
    (hne : path ≠ "") : ∃ name rest, parts path = name :: rest ∧ isStay name = false := by
  obtain ⟨habsolute, hdot, -⟩ := isDescending_iff.mp h
  cases hparts : parts path with
  | nil => exact absurd hparts (parts_ne_nil path)
  | cons name rest =>
      refine ⟨name, rest, rfl, ?_⟩
      rw [isStay, Bool.or_eq_false_iff, beq_eq_false_iff_ne, beq_eq_false_iff_ne]
      constructor
      · rintro rfl
        cases rest with
        | nil =>
            refine hne ?_
            rw [← intercalate_parts path, hparts, String.intercalate_singleton]
        | cons p ps =>
            have habsolute' : isAbsolute path = true := isAbsolute_iff.mpr ⟨p, ps, hparts⟩
            rw [habsolute] at habsolute'
            exact Bool.false_ne_true habsolute'
      · rintro rfl
        rw [hparts] at hdot
        exact hdot rfl

/-! ### Paths from a base -/

/-- The parts of a path that is followed from a base come after those of the base. -/
theorem exists_front (base : String) {path : String} (h : isAbsolute path = false) :
    ∃ front, parts (join base path) = front ++ parts path ∧
      (parts base = front ∨ parts base = front ++ [""]) := by
  rw [join, h, if_neg Bool.false_ne_true]
  by_cases hempty : base = ""
  · subst hempty
    exact ⟨[], by simp, Or.inr rfl⟩
  · by_cases hslash : base.toList.getLast? = some '/'
    · obtain ⟨cs, hcs⟩ := List.getLast?_eq_some_iff.mp hslash
      have hbase : base = String.ofList cs ++ "/" ++ "" := by
        rw [← String.toList_inj, hcs]
        simp
      have hpath : base ++ path = String.ofList cs ++ "/" ++ path := by
        rw [hbase, String.append_empty]
      rw [if_pos (by simp [hslash]), hpath, parts_slash, hbase, parts_slash]
      exact ⟨_, rfl, Or.inr rfl⟩
    · rw [if_neg (by simp [hempty, hslash]), parts_slash]
      exact ⟨_, rfl, Or.inl rfl⟩

/-- A relative path that is joined to a base starts where the base does. -/
theorem isAbsolute_join {base path : String} (h : isAbsolute path = false) :
    isAbsolute (join base path) = isAbsolute base := by
  rw [join, h, if_neg Bool.false_ne_true]
  by_cases hempty : base = ""
  · subst hempty
    have hrelative : isAbsolute "" = false := rfl
    rw [hrelative]
    simpa using h
  · have hhead : base.toList ≠ [] := fun hnil => hempty (String.toList_eq_nil_iff.mp hnil)
    split <;>
      simp only [isAbsolute, String.toList_append, List.append_assoc,
        List.head?_append_of_ne_nil _ hhead]

/-- A slash at the end does not change where parts lead. -/
theorem foldl_front {parts front : List String} (h : parts = front ∨ parts = front ++ [""])
    (here : Location) : front.foldl step here = parts.foldl step here := by
  rcases h with rfl | rfl
  · rfl
  · rw [List.foldl_append]
    rfl

/-- A path that goes nowhere but down leads to its names below the base. -/
theorem resolve_join {path : String} (h : isDescending path = true) (here : Location)
    (base : String) : resolve here (join base path) = resolve here base ++ names path := by
  obtain ⟨habsolute, -, hup⟩ := isDescending_iff.mp h
  obtain ⟨front, hparts, hbase⟩ := exists_front base habsolute
  have horigin : origin here (join base path) = origin here base := by
    rw [origin, isAbsolute_join habsolute, origin]
  rw [resolve, resolve, hparts, horigin, List.foldl_append, foldl_step hup, foldl_front hbase,
    names]

/-! ### Ways -/

/-- The locations that parts lead through, the first one included. -/
def visited (here : Location) : List String → List Location
  | [] => [here]
  | part :: rest => here :: visited (step here part) rest

/-- The locations that a path leads through. -/
def way (here : Location) (path : String) : List Location :=
  visited (origin here path) (parts path)

/-- Parts lead through the location where they start. -/
theorem mem_visited_self (here : Location) (ps : List String) : here ∈ visited here ps := by
  cases ps <;> exact List.mem_cons_self

/-- Parts lead through the locations of the first ones and of those that follow from there. -/
theorem mem_visited_append {here at_ : Location} {ps qs : List String} :
    at_ ∈ visited here (ps ++ qs) ↔
      at_ ∈ visited here ps ∨ at_ ∈ visited (ps.foldl step here) qs := by
  induction ps generalizing here with
  | nil =>
      rw [List.nil_append, List.foldl_nil, visited, List.mem_singleton]
      constructor
      · exact Or.inr
      · rintro (rfl | h)
        · exact mem_visited_self _ qs
        · exact h
  | cons p ps ih => rw [List.cons_append, visited, List.mem_cons, ih, visited, List.mem_cons,
      List.foldl_cons, or_assoc]

/-- Parts that never go up lead through no location but those below the first one. -/
theorem prefix_of_mem_visited {ps : List String} (h : ".." ∉ ps) {here at_ : Location}
    (hmem : at_ ∈ visited here ps) : here <+: at_ := by
  induction ps generalizing here with
  | nil =>
      obtain rfl := List.mem_singleton.mp hmem
      exact List.prefix_rfl
  | cons p ps ih =>
      rw [List.mem_cons, not_or] at h
      rcases List.mem_cons.mp hmem with rfl | hmem
      · exact List.prefix_rfl
      · have hstep : here <+: step here p := by
          rw [step, if_neg (Ne.symm h.1)]
          split
          · exact List.prefix_rfl
          · exact List.prefix_append _ _
        exact hstep.trans (ih h.2 hmem)

/-- A part that stays adds no location. -/
theorem visited_stay {here at_ : Location} {part : String} (h : isStay part = true)
    (ps : List String) : at_ ∈ visited here (part :: ps) ↔ at_ ∈ visited here ps := by
  have hstep : step here part = here := by rw [step, if_pos h]
  rw [visited, hstep, List.mem_cons]
  constructor
  · rintro (rfl | hmem)
    · exact mem_visited_self _ ps
    · exact hmem
  · exact Or.inr

/-- The first of some parts lead through no other locations than all of them. -/
theorem visited_subset {ps qs : List String} (h : ps <+: qs) (here : Location) :
    visited here ps ⊆ visited here qs := by
  obtain ⟨rest, rfl⟩ := h
  exact fun at_ hmem => mem_visited_append.mpr (Or.inl hmem)

/-! ### Parents -/

/-- Parts without those that stay at the end are a prefix of the parts. -/
theorem trimStays_isPrefix (ps : List String) : trimStays ps <+: ps := by
  cases ps with
  | nil => exact List.prefix_rfl
  | cons first rest =>
      rw [trimStays, List.prefix_cons_inj]
      obtain ⟨dropped, hdropped⟩ := List.dropWhile_suffix (l := rest.reverse) isStay
      refine ⟨dropped.reverse, ?_⟩
      rw [← List.reverse_append, hdropped, List.reverse_reverse]

/-- What is trimmed from the end of a list are parts that stay, so a name remains with all that is
before it. -/
theorem exists_trimStays_append (front : List String) {name : String} (h : isStay name = false)
    (rest : List String) : ∃ rest', trimStays (front ++ name :: rest) = front ++ name :: rest' := by
  have htrim : ∀ ps : List String, ∃ rest',
      ((ps ++ name :: rest).reverse.dropWhile isStay).reverse = ps ++ name :: rest' := by
    intro ps
    refine ⟨(rest.reverse.dropWhile isStay).reverse, ?_⟩
    rw [List.reverse_append, List.reverse_cons, List.append_assoc, List.dropWhile_append]
    split
    · rename_i hnil
      rw [List.isEmpty_iff] at hnil
      rw [hnil, List.singleton_append, List.dropWhile_cons_of_neg (by simp [h])]
      simp
    · simp
  cases front with
  | nil => exact ⟨_, rfl⟩
  | cons first front =>
      obtain ⟨rest', hrest⟩ := htrim front
      exact ⟨rest', by rw [List.cons_append, trimStays, hrest, List.cons_append]⟩

/-- The parts of a parent are a prefix of those of the path. -/
theorem parentParts_isPrefix (path : String) : parentParts path <+: parts path :=
  (trimStays_isPrefix _).trans ((List.dropLast_prefix _).trans (trimStays_isPrefix _))

/-- No part of a parent holds a slash. -/
theorem not_mem_of_mem_parentParts {path part : String} (h : part ∈ parentParts path) :
    '/' ∉ part.toList :=
  not_mem_of_mem_parts ((parentParts_isPrefix path).subset h)

/-- A parent starts at the root if the first of its parts is empty. -/
theorem isAbsolute_parent_iff {path : String} :
    isAbsolute (parent path) = true ↔ (parentParts path).head? = some "" := by
  rw [parent]
  split
  · rename_i hroot
    rw [hroot]
    exact iff_of_true rfl rfl
  · rename_i hroot
    cases hparts : parentParts path with
    | nil => exact iff_of_false Bool.false_ne_true (by simp)
    | cons first rest =>
        have hslash : ∀ part ∈ first :: rest, '/' ∉ part.toList := fun part hpart =>
          not_mem_of_mem_parentParts (hparts ▸ hpart)
        rw [isAbsolute_iff, parts_intercalate (List.cons_ne_nil _ _) hslash]
        cases rest with
        | nil => simpa using fun hfirst : first = "" => hroot (by rw [hparts, hfirst])
        | cons p ps => simp

/-- A path with a name starts at the root exactly if the path of its directory does. -/
theorem isAbsolute_parent {path name : String} {front rest : List String}
    (h : parts path = front ++ name :: rest) (hname : isStay name = false) :
    isAbsolute (parent path) = isAbsolute path := by
  have hempty : name ≠ "" := by
    rintro rfl
    exact Bool.false_ne_true hname.symm
  obtain ⟨rest', htrim⟩ := exists_trimStays_append front hname rest
  rw [Bool.eq_iff_iff, isAbsolute_parent_iff, isAbsolute_iff, parentParts, h, htrim]
  cases front with
  | nil => cases rest' <;> simp [trimStays, hempty]
  | cons first front =>
      rw [List.cons_append, List.dropLast_cons_of_ne_nil (by simp), trimStays]
      cases front <;> simp

/-- The parent as a path leads through no other locations than its parts do. -/
theorem visited_parts_parent (here : Location) (path : String) :
    visited here (parts (parent path)) ⊆ visited here (parentParts path) := by
  have hempty : isStay "" = true := rfl
  intro at_ hmem
  rw [parent] at hmem
  split at hmem
  · rename_i hroot
    have hslash : parts "/" = ["", ""] := rfl
    rw [hslash, visited_stay hempty] at hmem
    rwa [hroot]
  · cases hparts : parentParts path with
    | nil =>
        have hnone : parts ("/".intercalate []) = [""] := rfl
        rw [hparts, hnone, visited_stay hempty] at hmem
        exact hmem
    | cons first rest =>
        rwa [parts_intercalate (hparts ▸ List.cons_ne_nil _ _)
          fun part => not_mem_of_mem_parentParts, hparts] at hmem

/-- A path whose parent starts at the root does so itself. -/
theorem isAbsolute_of_isAbsolute_parent {path : String} (h : isAbsolute (parent path) = true) :
    isAbsolute path = true := by
  obtain ⟨rest, hrest⟩ := List.head?_eq_some_iff.mp (isAbsolute_parent_iff.mp h)
  obtain ⟨after, hparts⟩ := hrest ▸ parentParts_isPrefix path
  rw [isAbsolute_iff]
  cases rest with
  | cons p rest => exact ⟨p, rest ++ after, hparts.symm⟩
  | nil =>
      cases after with
      | cons p after => exact ⟨p, after, hparts.symm⟩
      | nil =>
          rw [parentParts, ← hparts] at hrest
          exact nomatch hrest

/-- The way to the directory of a file below a base starts where the way to the base starts, unless
the base is the root. -/
theorem origin_parent_join (base : String) {path : String} (h : isDescending path = true)
    (here : Location) :
    origin here (parent (join base path)) = origin here base ∨ resolve here base = [] := by
  obtain ⟨habsolute, -, -⟩ := isDescending_iff.mp h
  have hjoin : isAbsolute (join base path) = isAbsolute base := isAbsolute_join habsolute
  by_cases hname : ∃ name ∈ parts (join base path), isStay name = false
  · obtain ⟨name, hmem, hstay⟩ := hname
    obtain ⟨front, rest, hparts⟩ := List.append_of_mem hmem
    rw [origin, isAbsolute_parent hparts hstay, hjoin, origin]
    exact Or.inl rfl
  -- without a name the base leads nowhere from where it starts
  · have hstays : ∀ part ∈ parts base, isStay part = true := by
      obtain ⟨front, hparts, hbase⟩ := exists_front base habsolute
      intro part hpart
      by_contra hstay
      rw [Bool.not_eq_true] at hstay
      have hmem : part ∈ front := by
        rcases hbase with hbase | hbase
        · exact hbase ▸ hpart
        · rw [hbase, List.mem_append, List.mem_singleton] at hpart
          rcases hpart with hpart | rfl
          · exact hpart
          · exact absurd hstay (by decide)
      exact hname ⟨part, hparts ▸ List.mem_append_left _ hmem, hstay⟩
    cases hbase : isAbsolute base with
    | false =>
        have hparent : isAbsolute (parent (join base path)) = false := by
          rw [← Bool.not_eq_true]
          intro htrue
          rw [isAbsolute_of_isAbsolute_parent htrue, hbase] at hjoin
          cases hjoin
        rw [origin, origin, hparent, hbase]
        exact Or.inl rfl
    | true =>
        have hup : ".." ∉ parts base := fun hup => absurd (hstays _ hup) (by decide)
        refine Or.inr ?_
        rw [resolve, foldl_step hup, origin, hbase, if_pos rfl, List.nil_append,
          List.filter_eq_nil_iff]
        exact fun part hpart => by simp [hstays part hpart]

/-- The way to the directory of a file leads to the base and stays below it from there on. -/
theorem way_parent_join {base path : String} (h : isDescending path = true)
    {here at_ : Location} (hmem : at_ ∈ way here (parent (join base path))) :
    at_ ∈ way here base ∨ resolve here base <+: at_ := by
  obtain ⟨habsolute, -, hup⟩ := isDescending_iff.mp h
  obtain ⟨front, hparts, hbase⟩ := exists_front base habsolute
  rcases origin_parent_join base h here with horigin | hroot
  · rw [way, horigin] at hmem
    have hmem' := visited_subset (parentParts_isPrefix (join base path)) _
      (visited_parts_parent _ _ hmem)
    rw [hparts, mem_visited_append, foldl_front hbase] at hmem'
    rcases hmem' with hmem' | hmem'
    · have hfront : front <+: parts base := by
        rcases hbase with hbase | hbase
        · exact hbase ▸ List.prefix_rfl
        · exact hbase ▸ List.prefix_append _ _
      exact Or.inl (visited_subset hfront _ hmem')
    · exact Or.inr (prefix_of_mem_visited hup hmem')
  · rw [hroot]
    exact Or.inr List.nil_prefix

end OpenApiZod.Path
