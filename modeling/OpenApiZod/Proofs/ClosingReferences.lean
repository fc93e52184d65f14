import OpenApiZod.Proofs.ReportedCycles

/-!
# Closing references

A walk reports a cycle for each reference that leads back to the path on which it stands. That
reference closes no other reported cycle, and no other reported cycle passes over it, because all
other references of reported cycles lead to names that were visited later
(`eq_of_passesClosingOf`).

Every elementary cycle passes over the closing reference of a reported one: otherwise whoever goes
round it would come to no end, but the walk leaves all names settled (`exists_passesClosingOf`). The
cycle itself need not be reported, since the walk goes to each name once and so along one path only
(`not_reported_of_visited`). So all elementary cycles are reported exactly if none of them passes
over the closing reference of another one (`cycles_complete_iff`).
-/

namespace OpenApiZod.ReferenceGraph

open Walk

/-! ### The references of a cycle -/

/-- The references that a cycle passes over: from each name to the next, and from the last name to
the first. -/
def passes (cycle : List String) : List (String × String) :=
  cycle.zip (cycle.rotate 1)

/-- A rotated cycle takes the same references, in another order. -/
theorem passes_rotate (cycle : List String) (n : Nat) :
    passes (cycle.rotate n) = (passes cycle).rotate n := by
  have hlength : cycle.length = (cycle.rotate 1).length := (List.length_rotate _ _).symm
  rw [passes, passes, List.zip_eq_zipWith, List.zip_eq_zipWith,
    List.zipWith_rotate_distrib _ _ _ _ hlength, List.rotate_rotate, List.rotate_rotate,
    Nat.add_comm]

/-- Rotations of one cycle pass over the same references. -/
theorem mem_passes_of_isRotated {cycle cycle' : List String} (h : cycle.IsRotated cycle')
    {step : String × String} (hpass : step ∈ passes cycle) : step ∈ passes cycle' := by
  obtain ⟨n, rfl⟩ := h
  rw [passes_rotate]
  exact List.mem_rotate.mpr hpass

/-- A pair of neighbours stands inside the list, or at its end. -/
theorem mem_zip_append_singleton_iff {a b : String} (x y : String) (xs : List String) :
    (a, b) ∈ (x :: xs).zip (xs ++ [y]) ↔
      [a, b] <:+: x :: xs ∨ (x :: xs).getLast? = some a ∧ y = b := by
  induction xs generalizing x with
  | nil =>
      have hshort : ¬ [a, b] <:+: [x] := fun h => absurd h.length_le (by simp)
      simp [hshort, eq_comm]
  | cons z zs ih =>
      have hpair : [a, b] <:+: x :: z :: zs ↔ (a, b) = (x, z) ∨ [a, b] <:+: z :: zs := by
        rw [List.infix_cons_iff]
        simp
      rw [List.cons_append, List.zip_cons_cons, List.mem_cons, ih z, hpair,
        List.getLast?_cons_cons, or_assoc]

/-- A cycle passes between neighbours, and from its last name to its first. -/
theorem mem_passes_iff {cycle : List String} {a b : String} :
    (a, b) ∈ passes cycle ↔
      [a, b] <:+: cycle ∨ cycle.getLast? = some a ∧ cycle.head? = some b := by
  cases cycle with
  | nil => simp [passes]
  | cons x xs =>
      rw [passes, List.rotate_cons_succ, List.rotate_zero, mem_zip_append_singleton_iff,
        List.head?_cons, Option.some.injEq]

/-- From each of its names a cycle passes on to one of its names. -/
theorem exists_mem_passes {cycle : List String} {name : String} (h : name ∈ cycle) :
    ∃ next ∈ cycle, (name, next) ∈ passes cycle := by
  have hfst : (passes cycle).map Prod.fst = cycle :=
    List.map_fst_zip (List.length_rotate _ _).ge
  rw [← hfst] at h
  obtain ⟨⟨_, next⟩, hpass, rfl⟩ := List.mem_map.mp h
  exact ⟨next, List.mem_rotate.mp (List.of_mem_zip hpass).2, hpass⟩

/-- What a cycle passes along are references of the graph. -/
theorem IsCycle.edge_of_mem_passes {g : ReferenceGraph} {cycle : List String}
    (h : g.IsCycle cycle) {a b : String} (hpass : (a, b) ∈ passes cycle) : g.Edge a b := by
  rcases mem_passes_iff.mp hpass with hinfix | ⟨hlast, hfirst⟩
  · have hlinked := h.linked.infix hinfix
    rwa [List.isChain_pair] at hlinked
  · obtain ⟨last, first, hlast', hfirst', hedge⟩ := h.closed
    obtain rfl : a = last := Option.some.inj (hlast.symm.trans hlast')
    obtain rfl : b = first := Option.some.inj (hfirst.symm.trans hfirst')
    exact hedge

/-! ### Closing references of reported cycles -/

/-- The cycle passes over the reference that closes the reported one. -/
def PassesClosingOf (reported cycle : List String) : Prop :=
  ∃ last first, reported.getLast? = some last ∧ reported.head? = some first ∧
    (last, first) ∈ passes cycle

/-- A cycle passes along its own closing reference. -/
theorem IsCycle.passesClosingOf_self {g : ReferenceGraph} {cycle : List String}
    (h : g.IsCycle cycle) : PassesClosingOf cycle cycle := by
  obtain ⟨last, first, hlast, hfirst, -⟩ := h.closed
  exact ⟨last, first, hlast, hfirst, mem_passes_iff.mpr (Or.inr ⟨hlast, hfirst⟩)⟩

/-- It does not matter where a cycle begins. -/
theorem PassesClosingOf.of_isRotated {reported cycle cycle' : List String}
    (h : PassesClosingOf reported cycle) (hrotated : cycle.IsRotated cycle') :
    PassesClosingOf reported cycle' := by
  obtain ⟨last, first, hlast, hfirst, hpass⟩ := h
  exact ⟨last, first, hlast, hfirst, mem_passes_of_isRotated hrotated hpass⟩

section Cycles

variable (g : ReferenceGraph) (hdistinct : ∀ name, (g.dependencies name).Nodup)

include hdistinct

/-- Whoever goes round a cycle comes to a reference that closed a reported one. -/
theorem exists_passesClosingOf {cycle : List String} (h : g.IsCycle cycle) :
    ∃ reported ∈ g.cycles, PassesClosingOf reported cycle := by
  by_contra hnone
  have hunsettled : ∀ name, (g.walk g.names [] g.edges.keys ⟨[], []⟩).Settled g name →
      name ∉ cycle := by
    intro name hsettled
    induction hsettled with
    | intro name _ ih =>
        intro hname
        obtain ⟨next, hnext, hpass⟩ := exists_mem_passes hname
        refine ih next ⟨h.edge_of_mem_passes hpass, ?_⟩ hnext
        rintro ⟨reported, hmem, hlast, hfirst⟩
        exact hnone ⟨reported, hmem, name, next, hlast, hfirst, hpass⟩
  obtain ⟨last, first, hlast, -, hedge⟩ := h.closed
  have hsettled := g.settled_of_reaches hdistinct (.single hedge)
  exact hunsettled last hsettled (List.mem_of_getLast? hlast)

/-- No reference closes two reported cycles. -/
theorem eq_of_ends_eq {reported reported' : List String} (h : reported ∈ g.cycles)
    (h' : reported' ∈ g.cycles) (hends : ends reported = ends reported') :
    reported = reported' := by
  obtain ⟨new, hcycles, hnodup, -⟩ := (g.extends_cycles hdistinct).cycles
  have hcycles : g.cycles = new := hcycles
  rw [← hcycles] at hnodup
  exact List.inj_on_of_nodup_map hnodup h h' hends

/-- No reported cycle passes over the closing reference of another one. -/
theorem eq_of_passesClosingOf {reported reported' : List String} (h : reported ∈ g.cycles)
    (h' : reported' ∈ g.cycles) (hpass : PassesClosingOf reported reported') :
    reported = reported' := by
  obtain ⟨last, first, hlast, hfirst, hpass⟩ := hpass
  rcases mem_passes_iff.mp hpass with hinfix | ⟨hlast', hfirst'⟩
  · -- the first name of a reported cycle was visited before all others, so it does not follow one
    have hinvariant := (g.extends_cycles hdistinct).invariant
    have hforward := hinfix.sublist.trans (hinvariant.cycles _ h').2
    have hne : last ≠ first := by simpa using List.Nodup.sublist hforward hinvariant.nodup
    obtain ⟨rest, rfl⟩ := List.head?_eq_some_iff.mp hfirst
    have hrest : last ∈ rest := (List.mem_cons.mp (List.mem_of_getLast? hlast)).resolve_left hne
    have hbackward := ((List.singleton_sublist.mpr hrest).cons_cons first).trans
      (hinvariant.cycles _ h).2
    have heq := eq_of_perm_of_sublist hinvariant.nodup hforward hbackward (List.Perm.swap _ _ _)
    exact absurd (List.cons.inj heq).1 hne
  · exact g.eq_of_ends_eq hdistinct h h'
      (Prod.ext (hlast.trans hlast'.symm) (hfirst.trans hfirst'.symm))

end Cycles

/-- **Which cycles are reported.** In a graph of recorded edges, every elementary cycle passes over
the reference that closes some reported one, and a reported cycle over no closing reference but its
own. So each elementary cycle is reported, and in one of its rotations only, exactly if none passes
over the closing reference of a reported cycle of which it is no rotation. -/
theorem cycles_complete_iff (edges : List (String × String)) :
    (∀ cycle, (ofEdges edges).IsCycle cycle →
        ∃ reported ∈ (ofEdges edges).cycles, PassesClosingOf reported cycle) ∧
      (∀ reported ∈ (ofEdges edges).cycles, ∀ reported' ∈ (ofEdges edges).cycles,
        PassesClosingOf reported reported' ↔ reported = reported') ∧
      ((∀ cycle, (ofEdges edges).IsCycle cycle →
          ∃! reported, reported ∈ (ofEdges edges).cycles ∧ reported.IsRotated cycle) ↔
        ∀ reported ∈ (ofEdges edges).cycles, ∀ cycle, (ofEdges edges).IsCycle cycle →
          PassesClosingOf reported cycle → reported.IsRotated cycle) := by
  set g := ofEdges edges
  have hdistinct : ∀ name, (g.dependencies name).Nodup := nodup_dependencies_ofEdges edges
  have hself : ∀ reported ∈ g.cycles, PassesClosingOf reported reported :=
    fun _ hmem => (g.isCycle_of_mem_cycles hdistinct hmem).passesClosingOf_self
  have hclosing : ∀ reported ∈ g.cycles, ∀ reported' ∈ g.cycles,
      PassesClosingOf reported reported' → reported = reported' :=
    fun _ h _ h' => g.eq_of_passesClosingOf hdistinct h h'
  refine ⟨fun _ => g.exists_passesClosingOf hdistinct,
    fun reported h reported' h' => ⟨hclosing reported h reported' h', ?_⟩, ?_, ?_⟩
  · rintro rfl
    exact hself reported h
  · -- a rotation of the cycle is reported, and it passes over the same references
    intro hall reported hmem cycle hcycle hpass
    obtain ⟨reported', ⟨hmem', hrotated⟩, -⟩ := hall cycle hcycle
    obtain rfl := hclosing reported hmem reported' hmem' (hpass.of_isRotated hrotated.symm)
    exact hrotated
  · intro honly cycle hcycle
    obtain ⟨reported, hmem, hpass⟩ := g.exists_passesClosingOf hdistinct hcycle
    have hrotated := honly reported hmem cycle hcycle hpass
    refine ⟨reported, ⟨hmem, hrotated⟩, ?_⟩
    rintro reported' ⟨hmem', hrotated'⟩
    exact (hclosing reported hmem reported' hmem'
      ((hself reported hmem).of_isRotated (hrotated.trans hrotated'.symm))).symm

/-- `A` refers to `B` and to `C`, `C` to `B`, and `B` back to `A`. The walk goes to `B` first and
has left it when it comes from `C`: the cycle of all three is not reported, and `C` is in no
reported cycle at all. -/
theorem not_reported_of_visited :
    let g := ofEdges [("A", "B"), ("A", "C"), ("B", "A"), ("C", "B")]
    g.cycles = [["A", "B"]] ∧ g.IsCycle ["A", "C", "B"] ∧
      (¬ ∃ reported ∈ g.cycles, reported.IsRotated ["A", "C", "B"]) ∧
      g.cycleGroups.shared "C" "C" = true ∧ ∀ reported ∈ g.cycles, "C" ∉ reported := by
  intro g
  have hcycles : g.cycles = [["A", "B"]] := by
    have hnames : g.names = ["A", "B", "C"] := by decide
    have hkeys : g.edges.keys = ["A", "B", "C"] := by decide
    have hA : g.dependencies "A" = ["B", "C"] := by decide
    have hB : g.dependencies "B" = ["A"] := by decide
    have hC : g.dependencies "C" = ["B"] := by decide
    rw [cycles, hnames, hkeys]
    simp [walk, hA, hB, hC]
  have hcycle : g.IsCycle ["A", "C", "B"] := by
    have hedge : ∀ a b, (a, b) ∈ [("A", "B"), ("A", "C"), ("B", "A"), ("C", "B")] →
        g.Edge a b := fun a b => (edge_ofEdges_iff _ a b).mpr
    refine ⟨by decide, ?_, "B", "A", rfl, rfl, hedge "B" "A" (by decide)⟩
    rw [List.isChain_cons_cons, List.isChain_pair]
    exact ⟨hedge "A" "C" (by decide), hedge "C" "B" (by decide)⟩
  refine ⟨hcycles, hcycle, ?_, hcycle.shared (by decide) (by decide), ?_⟩
  · rintro ⟨reported, hmem, hrotated⟩
    rw [hcycles, List.mem_singleton] at hmem
    exact absurd (hmem ▸ hrotated.perm.length_eq) (by decide)
  · intro reported hmem
    rw [hcycles, List.mem_singleton] at hmem
    rw [hmem]
    decide

end OpenApiZod.ReferenceGraph
