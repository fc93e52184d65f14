import OpenApiZod.Proofs.CycleSearch

/-!
# Cycle groups

The search started at every owner of a graph ends with all names complete, so the groups that it
finds are right for all names (`shared_cycleGroups_iff`): two names are in one group exactly if
each reaches the other. There are no groups exactly if the graph has no cycle
(`isEmpty_cycleGroups_iff`).

For a graph that is recorded edge by edge this determines the answers by the set of recorded edges
alone, so their order is of no consequence (`cycleGroups_ofEdges`).
-/

open Relation

namespace OpenApiZod.ReferenceGraph

open CycleSearch

/-- The search from one owner after the other enters all of them. -/
theorem connectEach_spec (g : ReferenceGraph) (owners : List String) (s : CycleSearch)
    (howners : ∀ owner ∈ owners, owner ∈ g.names) (hinv : Invariant g [] s) :
    Invariant g [] (g.connectEach owners s howners) ∧
      ∀ x, s.Entered x ∨ x ∈ owners → (g.connectEach owners s howners).Entered x := by
  induction owners generalizing s with
  | nil =>
      refine ⟨hinv, ?_⟩
      rintro x (hx | hx)
      · exact hx
      · exact absurd hx List.not_mem_nil
  | cons owner rest ih =>
      rw [connectEach]
      by_cases hnew : owner ∈ s.index.keys
      · rw [dif_pos hnew]
        obtain ⟨hinv', hall⟩ :=
          ih s (fun o ho => howners o (List.mem_cons_of_mem _ ho)) hinv
        refine ⟨hinv', ?_⟩
        rintro x (hx | hx)
        · exact hall x (Or.inl hx)
        · rcases List.mem_cons.mp hx with rfl | hx
          · exact hall x (Or.inl hnew)
          · exact hall x (Or.inr hx)
      · rw [dif_neg hnew]
        have hleads : ∀ x ∈ s.stack, ReflTransGen g.Edge x owner := by
          intro x hx
          rw [hinv.stack_eq_nil] at hx
          exact absurd hx List.not_mem_nil
        have hc := g.connect_spec owner s (howners owner List.mem_cons_self) hnew hinv hleads
        obtain ⟨hinv', hall⟩ :=
          ih _ (fun o ho => howners o (List.mem_cons_of_mem _ ho)) hc.invariant
        refine ⟨hinv', ?_⟩
        rintro x (hx | hx)
        · exact hall x (Or.inl (hc.keeps.entered x hx))
        · rcases List.mem_cons.mp hx with rfl | hx
          · exact hall x (Or.inl hc.entered)
          · exact hall x (Or.inr hx)

/-- The groups of a graph are right for a set of names that all owners are in. -/
theorem sound_cycleGroups (g : ReferenceGraph) :
    ∃ done : String → Prop, (∀ x ∈ g.edges.keys, done x) ∧ g.cycleGroups.Sound g done := by
  obtain ⟨hinv, hall⟩ := g.connectEach_spec g.edges.keys .start
    (fun _ h => mem_names_of_mem_keys h) (Invariant.start g)
  refine ⟨_, fun x hx => ⟨hall x (Or.inr hx), ?_⟩, hinv.sound⟩
  rw [hinv.stack_eq_nil]
  exact List.not_mem_nil

/-- Two names are in one group exactly if each reaches the other. -/
theorem shared_cycleGroups_iff (g : ReferenceGraph) (a b : String) :
    g.cycleGroups.shared a b = true ↔ g.Reaches a b ∧ g.Reaches b a := by
  obtain ⟨done, hdone, hsound⟩ := g.sound_cycleGroups
  constructor
  · intro h
    obtain ⟨n, ha, hb⟩ := CycleGroups.shared_iff.mp h
    exact (hsound.shared a b (hsound.done a n ha).1 (hsound.done b n hb).1).mp h
  · rintro ⟨hab, hba⟩
    exact (hsound.shared a b (hdone a (mem_keys_of_reaches hab))
      (hdone b (mem_keys_of_reaches hba))).mpr ⟨hab, hba⟩

/-- A name belongs to a group exactly if it leads back to itself. -/
theorem shared_cycleGroups_self_iff (g : ReferenceGraph) (a : String) :
    g.cycleGroups.shared a a = true ↔ g.Reaches a a := by
  rw [shared_cycleGroups_iff, and_self]

/-- Every number of a group is that of a name which reaches itself. -/
theorem exists_groupOf_cycleGroups (g : ReferenceGraph) {n : Nat} (hn : n < g.cycleGroups.count) :
    ∃ a, g.cycleGroups.groupOf.get? a = some n ∧ g.Reaches a a := by
  obtain ⟨done, -, hsound⟩ := g.sound_cycleGroups
  obtain ⟨a, ha⟩ := hsound.inhabited n hn
  exact ⟨a, ha, (g.shared_cycleGroups_self_iff a).mp (CycleGroups.shared_iff.mpr ⟨n, ha, ha⟩)⟩

/-- There are no groups exactly if no name reaches itself. -/
theorem isEmpty_cycleGroups_iff (g : ReferenceGraph) :
    g.cycleGroups.isEmpty = true ↔ ∀ a, ¬ g.Reaches a a := by
  obtain ⟨done, -, hsound⟩ := g.sound_cycleGroups
  rw [CycleGroups.isEmpty, beq_iff_eq]
  constructor
  · intro hempty a hreach
    obtain ⟨n, ha, -⟩ :=
      CycleGroups.shared_iff.mp ((g.shared_cycleGroups_self_iff a).mpr hreach)
    have := (hsound.done a n ha).2
    omega
  · intro hacyclic
    by_contra hne
    obtain ⟨a, -, hback⟩ := g.exists_groupOf_cycleGroups (Nat.pos_of_ne_zero hne)
    exact hacyclic a hback

/-- **Cycle groups of recorded edges.** Two names are in one group exactly if a path of at least
one recorded edge leads from each to the other; a name shares a group with itself exactly if it
lies on a cycle, and there are no groups exactly if there is no cycle. Edges recorded in another
order, or more often, give the same answers. -/
theorem cycleGroups_ofEdges (edges : List (String × String)) :
    (∀ a b, (ofEdges edges).cycleGroups.shared a b = true ↔
        TransGen (Recorded edges) a b ∧ TransGen (Recorded edges) b a) ∧
      (∀ a, (ofEdges edges).cycleGroups.shared a a = true ↔ TransGen (Recorded edges) a a) ∧
      ((ofEdges edges).cycleGroups.isEmpty = true ↔ ∀ a, ¬ TransGen (Recorded edges) a a) ∧
      ∀ edges', (∀ e, e ∈ edges' ↔ e ∈ edges) →
        (∀ a b, (ofEdges edges').cycleGroups.shared a b =
          (ofEdges edges).cycleGroups.shared a b) ∧
          (ofEdges edges').cycleGroups.isEmpty = (ofEdges edges).cycleGroups.isEmpty := by
  have hreaches : (ofEdges edges).Reaches = TransGen (Recorded edges) := by
    unfold Reaches
    rw [edge_ofEdges]
  refine ⟨?_, ?_, ?_, ?_⟩
  · intro a b
    rw [← hreaches]
    exact shared_cycleGroups_iff _ a b
  · intro a
    rw [← hreaches]
    exact shared_cycleGroups_self_iff _ a
  · rw [← hreaches]
    exact isEmpty_cycleGroups_iff _
  · intro edges' hsame
    have hrecorded : Recorded edges' = Recorded edges := by
      funext a b
      exact propext (hsame (a, b))
    have hreaches' : (ofEdges edges').Reaches = (ofEdges edges).Reaches := by
      unfold Reaches
      rw [edge_ofEdges, edge_ofEdges, hrecorded]
    refine ⟨?_, ?_⟩
    · intro a b
      rw [Bool.eq_iff_iff, shared_cycleGroups_iff, shared_cycleGroups_iff, hreaches']
    · rw [Bool.eq_iff_iff, isEmpty_cycleGroups_iff, isEmpty_cycleGroups_iff, hreaches']

/-- Two cycles with an edge from one to the other, a loop, and an edge on no cycle: recorded
backwards they give the same groups. -/
theorem cycleGroups_ofEdges_reverse :
    let edges := [("A", "B"), ("B", "C"), ("C", "A"), ("C", "D"), ("D", "E"), ("E", "D"),
      ("Node", "Node"), ("Pet", "Tag")]
    (∀ e, e ∈ edges.reverse ↔ e ∈ edges) ∧ (ofEdges edges).cycleGroups.shared "A" "C" = true ∧
      (ofEdges edges.reverse).cycleGroups.shared "A" "C" = true := by
  intro edges
  have hsame : ∀ e, e ∈ edges.reverse ↔ e ∈ edges := fun _ => List.mem_reverse
  obtain ⟨hshared, -, -, horder⟩ := cycleGroups_ofEdges edges
  have hAB : Recorded edges "A" "B" := List.mem_of_elem_eq_true rfl
  have hBC : Recorded edges "B" "C" := List.mem_of_elem_eq_true rfl
  have hCA : Recorded edges "C" "A" := List.mem_of_elem_eq_true rfl
  have hAC : (ofEdges edges).cycleGroups.shared "A" "C" = true :=
    (hshared "A" "C").mpr ⟨TransGen.tail (TransGen.single hAB) hBC, TransGen.single hCA⟩
  refine ⟨hsame, hAC, ?_⟩
  rw [(horder edges.reverse hsame).1]
  exact hAC

example : (ofEdges [("A", "B"), ("B", "A"), ("B", "C")]).cycleGroups.shared "B" "C" = false := by
  cbv

end OpenApiZod.ReferenceGraph
