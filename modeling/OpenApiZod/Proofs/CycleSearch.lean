import OpenApiZod.CycleGroups
import OpenApiZod.Proofs.Reachability
import OpenApiZod.Proofs.Tables

/-!
# The search for cycle groups

What `ReferenceGraph.connect` keeps true. At any moment the names that were entered are either
complete, with their group known, or still on the stack. `CycleSearch.Invariant` states it for a
search that is in the middle of following a chain of names:

* the stack is sorted by number, and a name on it leads to all names above it;
* every name on the stack leads to a name of the chain that is not above it;
* nothing leads from a complete name back to the stack;
* complete names have a common group exactly if they lead to each other.

`connect_spec` and `connectAll_spec` carry the invariant through the two mutually recursive steps
of the search. They also bound the number that a name is found to lead to: no reference from the
part of the stack that it added to the part below goes lower (`Crossing`). When that number is the
name's own, what the name added is a group (`close_of_eq`).
-/

open Relation

namespace OpenApiZod

/-! ### Groups -/

namespace CycleGroups

/-- Members of a new group have its number; the other names keep theirs. -/
theorem groupOf_push (groups : CycleGroups) (members : List String) (x : String) :
    (groups.push members).groupOf.get? x =
      if x ∈ members then some groups.count else groups.groupOf.get? x :=
  Table.get?_extend_map groups.groupOf members (fun _ => groups.count) x

/-- Two names share a group if they have one number. -/
theorem shared_iff {groups : CycleGroups} {a b : String} :
    groups.shared a b = true ↔
      ∃ n, groups.groupOf.get? a = some n ∧ groups.groupOf.get? b = some n := by
  rw [shared]
  cases groups.groupOf.get? a with
  | none => simp
  | some x =>
      cases groups.groupOf.get? b with
      | none => simp
      | some y =>
          rw [beq_iff_eq]
          constructor
          · rintro rfl
            exact ⟨x, rfl, rfl⟩
          · rintro ⟨n, hx, hy⟩
            exact Option.some.inj (hx.trans hy.symm)

/-- The groups are right for the names in `done`, and say nothing about others. -/
structure Sound (g : ReferenceGraph) (done : String → Prop) (groups : CycleGroups) : Prop where
  shared : ∀ a b, done a → done b →
    (groups.shared a b = true ↔ g.Reaches a b ∧ g.Reaches b a)
  done : ∀ a n, groups.groupOf.get? a = some n → done a ∧ n < groups.count
  inhabited : ∀ n < groups.count, ∃ a, groups.groupOf.get? a = some n

/-- Names that are not done have no group yet. -/
theorem Sound.get?_eq_none {g : ReferenceGraph} {done : String → Prop} {groups : CycleGroups}
    (h : groups.Sound g done) {a : String} (ha : ¬ done a) : groups.groupOf.get? a = none := by
  cases hgroup : groups.groupOf.get? a with
  | none => rfl
  | some n => exact absurd (h.done a n hgroup).1 ha

/-- A path from a closed set of names stays in it. -/
theorem done_of_reaches {g : ReferenceGraph} {done : String → Prop}
    (hclosed : ∀ x, done x → ∀ y, g.Edge x y → done y) {x y : String} (hx : done x)
    (h : g.Reaches x y) : done y := by
  induction h with
  | single hedge => exact hclosed x hx _ hedge
  | tail _ hedge ih => exact hclosed _ ih _ hedge

/-- A new group of names that lead to each other keeps the groups right, if nothing leads back
to it from the names that were done before. -/
theorem Sound.push {g : ReferenceGraph} {done : String → Prop} {groups : CycleGroups}
    {members : List String} (h : groups.Sound g done)
    (hclosed : ∀ x, done x → ∀ y, g.Edge x y → done y) (hne : members ≠ [])
    (hnew : ∀ x ∈ members, ¬ done x)
    (hmutual : ∀ x ∈ members, ∀ y ∈ members, g.Reaches x y) :
    (groups.push members).Sound g (fun x => done x ∨ x ∈ members) := by
  have hold : ∀ x, done x → (groups.push members).groupOf.get? x = groups.groupOf.get? x := by
    intro x hx
    rw [groupOf_push, if_neg fun hmem => hnew x hmem hx]
  have hmember : ∀ x ∈ members, (groups.push members).groupOf.get? x = some groups.count := by
    intro x hx
    rw [groupOf_push, if_pos hx]
  -- A name done before is in an old group, and the new group has a number of its own.
  have hapart : ∀ x y, done x → y ∈ members →
      ¬ ∃ n, (groups.push members).groupOf.get? x = some n ∧
        (groups.push members).groupOf.get? y = some n := by
    rintro x y hx hy ⟨n, hxn, hyn⟩
    rw [hold x hx] at hxn
    rw [hmember y hy, Option.some.injEq] at hyn
    exact absurd (h.done x n hxn).2 (by omega)
  have hunreached : ∀ x y, done x → y ∈ members → ¬ g.Reaches x y :=
    fun x y hx hy hreach => hnew y hy (done_of_reaches hclosed hx hreach)
  refine ⟨?_, ?_, ?_⟩
  · intro a b ha hb
    rw [shared_iff]
    rcases ha with ha | ha <;> rcases hb with hb | hb
    · rw [hold a ha, hold b hb, ← shared_iff]
      exact h.shared a b ha hb
    · exact iff_of_false (hapart a b ha hb) fun hab => hunreached a b ha hb hab.1
    · refine iff_of_false ?_ fun hab => hunreached b a hb ha hab.2
      rintro ⟨n, han, hbn⟩
      exact hapart b a hb ha ⟨n, hbn, han⟩
    · exact iff_of_true ⟨groups.count, hmember a ha, hmember b hb⟩
        ⟨hmutual a ha b hb, hmutual b hb a ha⟩
  · intro a n han
    show _ ∧ n < groups.count + 1
    rw [groupOf_push] at han
    by_cases hmem : a ∈ members
    · rw [if_pos hmem, Option.some.injEq] at han
      exact ⟨Or.inr hmem, by omega⟩
    · rw [if_neg hmem] at han
      obtain ⟨hdone, hlt⟩ := h.done a n han
      exact ⟨Or.inl hdone, by omega⟩
  · intro n hn
    have hn : n < groups.count + 1 := hn
    rcases Nat.lt_succ_iff_lt_or_eq.mp hn with hn | rfl
    · obtain ⟨a, ha⟩ := h.inhabited n hn
      exact ⟨a, (hold a (h.done a n ha).1).trans ha⟩
    · obtain ⟨x, hx⟩ := List.exists_mem_of_ne_nil members hne
      exact ⟨x, hmember x hx⟩

/-- A name that does not lead back to itself needs no group. -/
theorem Sound.skip {g : ReferenceGraph} {done : String → Prop} {groups : CycleGroups}
    {name : String} (h : groups.Sound g done)
    (hclosed : ∀ x, done x → ∀ y, g.Edge x y → done y) (hnew : ¬ done name)
    (hself : ¬ g.Reaches name name) :
    groups.Sound g (fun x => done x ∨ x ∈ [name]) := by
  have hnone : groups.groupOf.get? name = none := h.get?_eq_none hnew
  have hunreached : ∀ x, done x → ¬ g.Reaches x name :=
    fun x hx hreach => hnew (done_of_reaches hclosed hx hreach)
  refine ⟨?_, ?_, h.inhabited⟩
  · intro a b ha hb
    rw [List.mem_singleton] at ha hb
    rcases ha with ha | rfl <;> rcases hb with hb | rfl
    · exact h.shared a b ha hb
    · rw [shared_iff, hnone]
      exact iff_of_false (by simp) fun hab => hunreached a ha hab.1
    · rw [shared_iff, hnone]
      exact iff_of_false (by simp) fun hab => hunreached b hb hab.2
    · rw [shared_iff, hnone]
      exact iff_of_false (by simp) fun hab => hself hab.1
  · intro a n han
    exact ⟨Or.inl (h.done a n han).1, (h.done a n han).2⟩

end CycleGroups

namespace CycleSearch

/-! ### Numbers -/

/-- The name has a number. -/
def Entered (s : CycleSearch) (name : String) : Prop :=
  name ∈ s.index.keys

/-- The name has a number, and its group is known. -/
def Complete (s : CycleSearch) (name : String) : Prop :=
  s.Entered name ∧ name ∉ s.stack

/-- A name gets the next number when it is entered. -/
@[simp] theorem indexOf_enter_self (s : CycleSearch) (name : String) :
    (s.enter name).indexOf name = s.next := by
  simp [indexOf, enter]

/-- That is also the lowest number it leads to at first. -/
@[simp] theorem lowOf_enter_self (s : CycleSearch) (name : String) :
    (s.enter name).lowOf name = s.next := by
  simp [lowOf, enter]

/-- All others keep their numbers. -/
theorem indexOf_enter_of_ne (s : CycleSearch) {name other : String} (h : other ≠ name) :
    (s.enter name).indexOf other = s.indexOf other := by
  rw [indexOf, enter, Table.get?_insert_of_ne _ _ h, indexOf]

/-- They also keep the lowest numbers they lead to. -/
theorem lowOf_enter_of_ne (s : CycleSearch) {name other : String} (h : other ≠ name) :
    (s.enter name).lowOf other = s.lowOf other := by
  rw [lowOf, enter, Table.get?_insert_of_ne _ _ h, lowOf]

/-- Lowering does not change the numbers of names. -/
@[simp] theorem indexOf_lower (s : CycleSearch) (name : String) (number : Nat) (other : String) :
    (s.lower name number).indexOf other = s.indexOf other := by
  rw [indexOf, index_lower, indexOf]

/-- Noting a number leaves the lower of it and the one known. -/
theorem lowOf_lower_self (s : CycleSearch) (name : String) (number : Nat) :
    (s.lower name number).lowOf name = min number (s.lowOf name) := by
  rw [lower]
  by_cases h : number < s.lowOf name
  · rw [if_pos h, Nat.min_eq_left (Nat.le_of_lt h), lowOf, Table.get?_insert_self,
      Option.getD_some]
  · rw [if_neg h, Nat.min_eq_right (Nat.le_of_not_lt h)]

/-- It changes the lowest number of one name alone. -/
theorem lowOf_lower_of_ne (s : CycleSearch) {name other : String} (number : Nat)
    (h : other ≠ name) : (s.lower name number).lowOf other = s.lowOf other := by
  rw [lower]
  split
  · rw [lowOf, Table.get?_insert_of_ne _ _ h, lowOf]
  · rfl

/-- It leaves the stack as it is. -/
@[simp] theorem stack_lower (s : CycleSearch) (name : String) (number : Nat) :
    (s.lower name number).stack = s.stack := by
  rw [lower]
  split <;> rfl

/-- Popping to a name that is not above takes exactly what stands above it, and itself. -/
theorem popTo_append {name : String} {above base : List String} (h : name ∉ above) :
    popTo name (above ++ name :: base) = (above ++ [name], base) := by
  induction above with
  | nil => simp [popTo]
  | cons x above ih =>
      rw [List.mem_cons, not_or] at h
      rw [List.cons_append, popTo, if_neg (Ne.symm h.1), ih h.2, List.cons_append]

/-- Nothing that `s` knows of a name has changed, except the number that `name` leads to. -/
structure KeepsExcept (name : Option String) (s s' : CycleSearch) : Prop where
  entered : ∀ x, s.Entered x → s'.Entered x
  indexOf : ∀ x, s.Entered x → s'.indexOf x = s.indexOf x
  lowOf : ∀ x, s.Entered x → some x ≠ name → s'.lowOf x = s.lowOf x

/-- What two stretches of a search keep, both together do. -/
theorem KeepsExcept.trans {name : Option String} {s₁ s₂ s₃ : CycleSearch}
    (h₁ : KeepsExcept name s₁ s₂) (h₂ : KeepsExcept name s₂ s₃) : KeepsExcept name s₁ s₃ where
  entered x hx := h₂.entered x (h₁.entered x hx)
  indexOf x hx := (h₂.indexOf x (h₁.entered x hx)).trans (h₁.indexOf x hx)
  lowOf x hx hne := (h₂.lowOf x (h₁.entered x hx) hne).trans (h₁.lowOf x hx hne)

/-- Lowering keeps everything but the lowest number of the name. -/
theorem KeepsExcept.lower (s : CycleSearch) (name : String) (number : Nat) :
    KeepsExcept (some name) s (s.lower name number) where
  entered x hx := by rwa [Entered, index_lower]
  indexOf x _ := indexOf_lower s name number x
  lowOf x _ hne := lowOf_lower_of_ne s number fun h => hne (congrArg some h)

/-! ### The invariant -/

/-- What holds of a search that is following the names of `chain`. -/
structure Invariant (g : ReferenceGraph) (chain : List String) (s : CycleSearch) : Prop where
  onStack_iff : ∀ x, x ∈ s.onStack ↔ x ∈ s.stack
  entered : ∀ x ∈ s.stack, s.Entered x
  indexOf_lt : ∀ x, s.Entered x → s.indexOf x < s.next
  sorted : s.stack.Pairwise fun above below => s.indexOf below < s.indexOf above
  linked : s.stack.Pairwise fun above below => ReflTransGen g.Edge below above
  chain_subset : ∀ x ∈ chain, x ∈ s.stack
  leads_to_chain : ∀ x ∈ s.stack, ∃ y ∈ chain,
    s.indexOf y ≤ s.indexOf x ∧ ReflTransGen g.Edge x y
  followed : ∀ x, s.Entered x → x ∉ chain → ∀ y, g.Edge x y → s.Entered y
  closed : ∀ x, s.Complete x → ∀ y, g.Edge x y → s.Complete y
  sound : s.groups.Sound g s.Complete

/-- No reference from `above` to `base` goes to a number below `number`. -/
def Crossing (g : ReferenceGraph) (s : CycleSearch) (number : Nat) (above base : List String) :
    Prop :=
  ∀ x ∈ above, ∀ y ∈ base, g.Edge x y → number ≤ s.indexOf y

/-- What holds while the references of `name` are followed. `base` is the stack below it. -/
structure Following (g : ReferenceGraph) (chain : List String) (name : String)
    (base : List String) (s : CycleSearch) : Prop where
  invariant : Invariant g (name :: chain) s
  chain_base : ∀ x ∈ chain, x ∈ base
  stack : ∃ above, s.stack = above ++ name :: base ∧ Crossing g s (s.lowOf name) above base
  low_le : s.lowOf name ≤ s.indexOf name
  low_reached : ∃ y ∈ s.stack, s.indexOf y = s.lowOf name ∧ ReflTransGen g.Edge name y

/-- What holds when `name` has been followed: the search that entered it was in state `s`. -/
structure Connected (g : ReferenceGraph) (chain : List String) (name : String)
    (s s' : CycleSearch) : Prop where
  invariant : Invariant g chain s'
  keeps : KeepsExcept none s s'
  entered : s'.Entered name
  stack : ∃ above, s'.stack = above ++ s.stack ∧ Crossing g s' (s'.lowOf name) above s.stack
  next_le : s.next ≤ s'.indexOf name
  low : s'.lowOf name = s'.indexOf name ∨
    ∃ y ∈ s'.stack, s'.indexOf y = s'.lowOf name ∧ ReflTransGen g.Edge name y

/-- No name stands on the stack twice, since numbers grow along it. -/
theorem Invariant.nodup {g : ReferenceGraph} {chain : List String} {s : CycleSearch}
    (h : Invariant g chain s) : s.stack.Nodup := by
  refine h.sorted.imp ?_
  rintro a b hlt rfl
  exact Nat.lt_irrefl _ hlt

/-- With no name left to follow, every name that was entered is complete. -/
theorem Invariant.stack_eq_nil {g : ReferenceGraph} {s : CycleSearch} (h : Invariant g [] s) :
    s.stack = [] := by
  rw [List.eq_nil_iff_forall_not_mem]
  intro x hx
  obtain ⟨y, hy, -⟩ := h.leads_to_chain x hx
  exact absurd hy List.not_mem_nil

/-- The invariant holds before the search begins. -/
theorem Invariant.start (g : ReferenceGraph) : Invariant g [] .start where
  onStack_iff x := Iff.rfl
  entered x hx := absurd hx List.not_mem_nil
  indexOf_lt x hx := absurd hx List.not_mem_nil
  sorted := List.Pairwise.nil
  linked := List.Pairwise.nil
  chain_subset x hx := absurd hx List.not_mem_nil
  leads_to_chain x hx := absurd hx List.not_mem_nil
  followed x hx := absurd hx List.not_mem_nil
  closed x hx := absurd hx.1 List.not_mem_nil
  sound :=
    { shared := fun a _ ha => absurd ha.1 List.not_mem_nil
      done := fun a n h => absurd h (by simp [CycleSearch.start, CycleGroups.empty])
      inhabited := fun _ h => absurd h (Nat.not_lt_zero _) }

section Following

variable {g : ReferenceGraph} {chain base : List String} {name : String} {s : CycleSearch}

/-- Every name on the stack leads to the name that is being followed. -/
theorem Following.leads_to (h : Following g chain name base s) :
    ∀ x ∈ s.stack, ReflTransGen g.Edge x name := by
  intro x hx
  obtain ⟨above, hstack, -⟩ := h.stack
  have hlinked := h.invariant.linked
  rw [hstack, List.pairwise_append, List.pairwise_cons] at hlinked
  have hbase : ∀ y ∈ base, ReflTransGen g.Edge y name := fun y hy => hlinked.2.1.1 y hy
  obtain ⟨y, hy, -, hxy⟩ := h.invariant.leads_to_chain x hx
  rcases List.mem_cons.mp hy with rfl | hy
  · exact hxy
  · exact hxy.trans (hbase y (h.chain_base y hy))

/-- What stands below a name on the stack has a smaller number. -/
theorem Following.indexOf_base_lt (h : Following g chain name base s) :
    ∀ y ∈ base, s.indexOf y < s.indexOf name := by
  intro y hy
  obtain ⟨above, hstack, -⟩ := h.stack
  have hsorted := h.invariant.sorted
  rw [hstack, List.pairwise_append, List.pairwise_cons] at hsorted
  exact hsorted.2.1.1 y hy

/-- The name that is followed stands on the stack. -/
theorem Following.mem_stack (h : Following g chain name base s) : name ∈ s.stack :=
  h.invariant.chain_subset name List.mem_cons_self

/-- So does all that stands below it. -/
theorem Following.base_subset (h : Following g chain name base s) :
    ∀ y ∈ base, y ∈ s.stack := by
  intro y hy
  obtain ⟨above, hstack, -⟩ := h.stack
  rw [hstack]
  exact List.mem_append_right _ (List.mem_cons_of_mem _ hy)

end Following

/-! ### Entering a name -/

section Steps

variable {g : ReferenceGraph} {chain base : List String} {name target : String}
  {s s' : CycleSearch}

/-- Entering a new name keeps all that was known. -/
theorem KeepsExcept.enter (hnew : ¬ s.Entered name) : KeepsExcept none s (s.enter name) where
  entered _ hx := mem_index_enter.mpr (Or.inl hx)
  indexOf _ hx := indexOf_enter_of_ne s fun h => hnew (h ▸ hx)
  lowOf _ hx _ := lowOf_enter_of_ne s fun h => hnew (h ▸ hx)

/-- A name that is new, and that all of the stack leads to, can be followed. -/
theorem Invariant.enter (h : Invariant g chain s) (hnew : ¬ s.Entered name)
    (hleads : ∀ x ∈ s.stack, ReflTransGen g.Edge x name) :
    Following g chain name s.stack (s.enter name) := by
  have hentered : ∀ x, (s.enter name).Entered x ↔ s.Entered x ∨ x = name :=
    fun x => mem_index_enter
  have hkeep : ∀ x, s.Entered x → (s.enter name).indexOf x = s.indexOf x :=
    (KeepsExcept.enter hnew).indexOf
  have hcomplete : ∀ x, (s.enter name).Complete x ↔ s.Complete x := by
    intro x
    show (s.enter name).Entered x ∧ x ∉ name :: s.stack ↔ s.Entered x ∧ x ∉ s.stack
    rw [hentered, List.mem_cons, not_or]
    constructor
    · rintro ⟨hx | hx, hne, hstack⟩
      · exact ⟨hx, hstack⟩
      · exact absurd hx hne
    · rintro ⟨hx, hstack⟩
      exact ⟨Or.inl hx, fun hname => hnew (hname ▸ hx), hstack⟩
  refine ⟨⟨?_, ?_, ?_, ?_, ?_, ?_, ?_, ?_, ?_, ?_⟩, h.chain_subset, ?_, ?_, ?_⟩
  · intro x
    show x ∈ appendNew s.onStack name ↔ x ∈ name :: s.stack
    rw [mem_appendNew, h.onStack_iff, List.mem_cons, or_comm]
  · intro x hx
    rw [hentered]
    rcases List.mem_cons.mp hx with rfl | hx
    · exact Or.inr rfl
    · exact Or.inl (h.entered x hx)
  · intro x hx
    show (s.enter name).indexOf x < s.next + 1
    rcases (hentered x).mp hx with hx | rfl
    · have := h.indexOf_lt x hx
      rw [hkeep x hx]
      omega
    · rw [indexOf_enter_self]
      omega
  · refine List.pairwise_cons.mpr ⟨?_, ?_⟩
    · intro x hx
      rw [indexOf_enter_self, hkeep x (h.entered x hx)]
      exact h.indexOf_lt x (h.entered x hx)
    · refine h.sorted.imp_of_mem ?_
      intro a b ha hb hlt
      rwa [hkeep a (h.entered a ha), hkeep b (h.entered b hb)]
  · exact List.pairwise_cons.mpr ⟨hleads, h.linked⟩
  · intro x hx
    rcases List.mem_cons.mp hx with rfl | hx
    · exact List.mem_cons_self
    · exact List.mem_cons_of_mem _ (h.chain_subset x hx)
  · intro x hx
    rcases List.mem_cons.mp hx with rfl | hx
    · exact ⟨x, List.mem_cons_self, Nat.le_refl _, ReflTransGen.refl⟩
    · obtain ⟨y, hy, hle, hxy⟩ := h.leads_to_chain x hx
      refine ⟨y, List.mem_cons_of_mem _ hy, ?_, hxy⟩
      rwa [hkeep y (h.entered y (h.chain_subset y hy)), hkeep x (h.entered x hx)]
  · intro x hx hchain y hedge
    rw [List.mem_cons, not_or] at hchain
    rcases (hentered x).mp hx with hx | rfl
    · exact (hentered y).mpr (Or.inl (h.followed x hx hchain.2 y hedge))
    · exact absurd rfl hchain.1
  · intro x hx y hedge
    exact (hcomplete y).mpr (h.closed x ((hcomplete x).mp hx) y hedge)
  · have : (s.enter name).Complete = s.Complete := funext fun x => propext (hcomplete x)
    rw [this]
    exact h.sound
  · exact ⟨[], rfl, fun x hx => absurd hx List.not_mem_nil⟩
  · exact Nat.le_of_eq (by rw [lowOf_enter_self, indexOf_enter_self])
  · exact ⟨name, List.mem_cons_self, by rw [lowOf_enter_self, indexOf_enter_self],
      ReflTransGen.refl⟩

/-! ### Following a reference -/

/-- The invariant does not look at the numbers that names lead to. -/
theorem Invariant.lower (h : Invariant g chain s) (number : Nat) :
    Invariant g chain (s.lower name number) := by
  rw [CycleSearch.lower]
  split
  · exact ⟨h.onStack_iff, h.entered, h.indexOf_lt, h.sorted, h.linked, h.chain_subset,
      h.leads_to_chain, h.followed, h.closed, h.sound⟩
  · exact h

/-- Noting a number keeps what holds while `name` is followed if that number is led to, or is no
lower than the one known. -/
theorem Following.lower (above : List String) {number : Nat}
    (hinv : Invariant g (name :: chain) s) (hchain : ∀ x ∈ chain, x ∈ base)
    (hstack : s.stack = above ++ name :: base)
    (hcross : Crossing g s (min number (s.lowOf name)) above base)
    (hle : s.lowOf name ≤ s.indexOf name)
    (hlow : ∃ y ∈ s.stack, s.indexOf y = s.lowOf name ∧ ReflTransGen g.Edge name y)
    (hnumber : s.lowOf name ≤ number ∨
      ∃ y ∈ s.stack, s.indexOf y = number ∧ ReflTransGen g.Edge name y) :
    Following g chain name base (s.lower name number) := by
  refine ⟨hinv.lower number, hchain, ⟨above, ?_, ?_⟩, ?_, ?_⟩
  · rw [stack_lower, hstack]
  · intro x hx y hy hedge
    rw [lowOf_lower_self, indexOf_lower]
    exact hcross x hx y hy hedge
  · rw [lowOf_lower_self, indexOf_lower]
    omega
  · rw [lowOf_lower_self, stack_lower]
    simp only [indexOf_lower]
    rcases Nat.le_total (s.lowOf name) number with hnum | hnum
    · rwa [Nat.min_eq_right hnum]
    · rw [Nat.min_eq_left hnum]
      rcases hnumber with hnumber | hnumber
      · rwa [Nat.le_antisymm hnum hnumber]
      · exact hnumber

/-- A target that is on the stack is led to. -/
theorem Following.lower_of_mem (h : Following g chain name base s) (hedge : g.Edge name target)
    (hmem : target ∈ s.stack) :
    Following g chain name base (s.lower name (s.indexOf target)) := by
  obtain ⟨above, hstack, hcross⟩ := h.stack
  refine Following.lower above h.invariant h.chain_base hstack ?_ h.low_le h.low_reached
    (Or.inr ⟨target, hmem, rfl, ReflTransGen.single hedge⟩)
  intro x hx y hy hxy
  exact Nat.le_trans (Nat.min_le_right _ _) (hcross x hx y hy hxy)

/-- Entering and following a target of `name` keeps what holds while `name` is followed, once it
is noted what the target leads to. -/
theorem Following.connect (h : Following g chain name base s) (hedge : g.Edge name target)
    (hc : Connected g (name :: chain) target s s') :
    Following g chain name base (s'.lower name (s'.lowOf target)) := by
  obtain ⟨above, hstack, hcross⟩ := h.stack
  obtain ⟨new, hstack', hcross'⟩ := hc.stack
  have hname : s.Entered name := h.invariant.entered name h.mem_stack
  have hlow : s'.lowOf name = s.lowOf name := hc.keeps.lowOf name hname (by simp)
  have hindex : ∀ y ∈ s.stack, s'.indexOf y = s.indexOf y :=
    fun y hy => hc.keeps.indexOf y (h.invariant.entered y hy)
  have hmem : ∀ y ∈ s.stack, y ∈ s'.stack := by
    intro y hy
    rw [hstack']
    exact List.mem_append_right _ hy
  refine Following.lower (new ++ above) hc.invariant h.chain_base ?_ ?_ ?_ ?_ ?_
  · rw [hstack', hstack, List.append_assoc]
  · intro x hx y hy hxy
    rcases List.mem_append.mp hx with hx | hx
    · exact Nat.le_trans (Nat.min_le_left _ _) (hcross' x hx y (h.base_subset y hy) hxy)
    · rw [hlow, hindex y (h.base_subset y hy)]
      exact Nat.le_trans (Nat.min_le_right _ _) (hcross x hx y hy hxy)
  · rw [hlow, hindex name h.mem_stack]
    exact h.low_le
  · obtain ⟨y, hy, hylow, hreach⟩ := h.low_reached
    exact ⟨y, hmem y hy, by rw [hindex y hy, hlow, hylow], hreach⟩
  · rcases hc.low with hroot | ⟨y, hy, hylow, hreach⟩
    · have hlt := h.invariant.indexOf_lt name hname
      have hle := h.low_le
      have hnext := hc.next_le
      rw [hlow, hroot]
      exact Or.inl (by omega)
    · exact Or.inr ⟨y, hy, hylow, ReflTransGen.head hedge hreach⟩

/-! ### Completing a group -/

/-- What holds when all references of `name` have been followed. -/
structure Followed (g : ReferenceGraph) (chain : List String) (name : String)
    (base : List String) (s : CycleSearch) : Prop extends Following g chain name base s where
  targets_entered : ∀ y, g.Edge name y → s.Entered y
  targets_crossing : ∀ y ∈ base, g.Edge name y → s.lowOf name ≤ s.indexOf y

/-- A name that leads below itself stays on the stack, where it leads to another name of the
chain. -/
theorem Followed.invariant_of_ne (h : Followed g chain name base s)
    (hne : s.lowOf name ≠ s.indexOf name) : Invariant g chain s := by
  have hinv := h.invariant
  refine ⟨hinv.onStack_iff, hinv.entered, hinv.indexOf_lt, hinv.sorted, hinv.linked,
    fun x hx => h.base_subset x (h.chain_base x hx), ?_, ?_, hinv.closed, hinv.sound⟩
  · intro x hx
    obtain ⟨y, hy, hle, hxy⟩ := hinv.leads_to_chain x hx
    rcases List.mem_cons.mp hy with rfl | hy
    · obtain ⟨z, hz, hzlow, hyz⟩ := h.low_reached
      obtain ⟨w, hw, hwle, hzw⟩ := hinv.leads_to_chain z hz
      have hlow := h.low_le
      rcases List.mem_cons.mp hw with rfl | hw
      · omega
      · exact ⟨w, hw, by omega, (hxy.trans hyz).trans hzw⟩
    · exact ⟨y, hy, hle, hxy⟩
  · intro x hx hchain y hedge
    by_cases hname : x = name
    · exact h.targets_entered y (hname ▸ hedge)
    · exact hinv.followed x hx (by simp [hname, hchain]) y hedge

section Group

variable {above : List String}

/-- A stack is what stands above a name, the name, and what stands below it. -/
theorem mem_stack_iff (hstack : s.stack = above ++ name :: base) {x : String} :
    x ∈ s.stack ↔ x ∈ above ++ [name] ∨ x ∈ base := by
  rw [hstack]
  simp [or_assoc]

/-- What `name` added to the stack leads to `name`, and `name` to it. -/
theorem Following.leads_both_ways (h : Following g chain name base s)
    (hstack : s.stack = above ++ name :: base) :
    ∀ x ∈ above ++ [name], ReflTransGen g.Edge x name ∧ ReflTransGen g.Edge name x := by
  intro x hx
  have hlinked := h.invariant.linked
  rw [hstack, List.pairwise_append] at hlinked
  refine ⟨h.leads_to x ((mem_stack_iff hstack).mpr (Or.inl hx)), ?_⟩
  rcases List.mem_append.mp hx with hx | hx
  · exact hlinked.2.2 x hx name List.mem_cons_self
  · rw [List.mem_singleton.mp hx]

/-- If `name` leads to no number below its own, what it added to the stack refers only to itself
and to complete names. -/
theorem Followed.complete_of_edge (h : Followed g chain name base s)
    (hstack : s.stack = above ++ name :: base) (hroot : s.lowOf name = s.indexOf name) :
    ∀ x ∈ above ++ [name], ∀ y, g.Edge x y → y ∈ above ++ [name] ∨ s.Complete y := by
  intro x hx y hedge
  have hinv := h.invariant
  obtain ⟨above', hstack', hcross⟩ := h.stack
  obtain rfl : above' = above := List.append_cancel_right (hstack'.symm.trans hstack)
  have hnodup := hinv.nodup
  rw [hstack, List.nodup_append] at hnodup
  have hentered : s.Entered y := by
    rcases List.mem_append.mp hx with hx | hx
    · refine hinv.followed x (hinv.entered x ?_) ?_ y hedge
      · rw [hstack]
        exact List.mem_append_left _ hx
      · intro hchain
        have hmem : x ∈ name :: base := by
          rcases List.mem_cons.mp hchain with rfl | hchain
          · exact List.mem_cons_self
          · exact List.mem_cons_of_mem _ (h.chain_base x hchain)
        exact hnodup.2.2 x hx x hmem rfl
    · exact h.targets_entered y (List.mem_singleton.mp hx ▸ hedge)
  have hbase : y ∉ base := by
    intro hy
    have hlt := h.indexOf_base_lt y hy
    rcases List.mem_append.mp hx with hx | hx
    · have := hcross x hx y hy hedge
      omega
    · have := h.targets_crossing y hy (List.mem_singleton.mp hx ▸ hedge)
      omega
  by_cases hmem : y ∈ s.stack
  · exact Or.inl (((mem_stack_iff hstack).mp hmem).resolve_right hbase)
  · exact Or.inr ⟨hentered, hmem⟩

/-- What `name` added to the stack is a group unless it is `name` alone, not referring to
itself. -/
theorem Followed.reaches_self_iff (h : Followed g chain name base s)
    (hstack : s.stack = above ++ name :: base) (hroot : s.lowOf name = s.indexOf name) :
    g.Reaches name name ↔ 1 < (above ++ [name]).length ∨ g.Edge name name := by
  constructor
  · intro hreach
    by_contra hsingle
    rw [not_or] at hsingle
    obtain rfl : above = [] := by
      rw [← List.length_eq_zero_iff]
      simp only [List.length_append, List.length_singleton] at hsingle
      omega
    -- The first step leaves `name`, so it goes to a complete name, and nothing leads back.
    obtain ⟨y, hedge, hback⟩ := TransGen.head'_iff.mp hreach
    rcases h.complete_of_edge hstack hroot name (by simp) y hedge with hy | hy
    · obtain rfl : y = name := by simpa using hy
      exact hsingle.2 hedge
    · rcases reflTransGen_iff_eq_or_transGen.mp hback with rfl | hback
      · exact hy.2 h.mem_stack
      · exact (CycleGroups.done_of_reaches h.invariant.closed hy hback).2 h.mem_stack
  · rintro (hlong | hself)
    · obtain ⟨x, hx⟩ : ∃ x, x ∈ above := by
        refine List.exists_mem_of_ne_nil above ?_
        rintro rfl
        exact absurd hlong (by simp)
      obtain ⟨hto, hfrom⟩ := h.leads_both_ways hstack x (List.mem_append_left _ hx)
      have hne : x ≠ name := by
        have hnodup := h.invariant.nodup
        rw [hstack, List.nodup_append] at hnodup
        exact hnodup.2.2 x hx name List.mem_cons_self
      rcases reflTransGen_iff_eq_or_transGen.mp hto with heq | hto
      · exact absurd heq.symm hne
      · exact TransGen.trans_right hfrom hto
    · exact TransGen.single hself

/-- A name that leads to no number below its own completes the group of what it added to the
stack. -/
theorem Followed.sound (h : Followed g chain name base s)
    (hstack : s.stack = above ++ name :: base) (hroot : s.lowOf name = s.indexOf name) :
    (if 1 < (above ++ [name]).length || decide (name ∈ g.dependencies name) then
        s.groups.push (above ++ [name]) else s.groups).Sound g
      (fun x => s.Complete x ∨ x ∈ above ++ [name]) := by
  have hself := h.reaches_self_iff hstack hroot
  have hnew : ∀ x ∈ above ++ [name], ¬ s.Complete x :=
    fun x hx hcomplete => hcomplete.2 ((mem_stack_iff hstack).mpr (Or.inl hx))
  have hif : (1 < (above ++ [name]).length || decide (name ∈ g.dependencies name)) = true ↔
      1 < (above ++ [name]).length ∨ g.Edge name name := by
    rw [Bool.or_eq_true, decide_eq_true_eq, decide_eq_true_eq, ReferenceGraph.Edge]
  by_cases hgroup : 1 < (above ++ [name]).length ∨ g.Edge name name
  · have hreach : g.Reaches name name := hself.mpr hgroup
    rw [if_pos (hif.mpr hgroup)]
    refine h.invariant.sound.push h.invariant.closed (by simp) hnew ?_
    intro x hx y hy
    have hxname := (h.leads_both_ways hstack x hx).1
    have hnamey := (h.leads_both_ways hstack y hy).2
    exact (TransGen.trans_right hxname hreach).trans_left hnamey
  · rw [if_neg fun h => hgroup (hif.mp h)]
    obtain rfl : above = [] := by
      rw [← List.length_eq_zero_iff]
      simp only [List.length_append, List.length_singleton] at hgroup
      omega
    exact h.invariant.sound.skip h.invariant.closed (hnew name (by simp))
      fun hreach => hgroup (hself.mp hreach)

/-- What is left when the group is complete. -/
theorem close_of_eq (h : Followed g chain name base s) (hstack : s.stack = above ++ name :: base)
    (hroot : s.lowOf name = s.indexOf name) (selfReference : Bool) :
    s.close name selfReference =
      { s with
        stack := base
        onStack := s.onStack.filter (· ∉ above ++ [name])
        groups :=
          if 1 < (above ++ [name]).length || selfReference then
            s.groups.push (above ++ [name]) else s.groups } := by
  have hnodup := h.invariant.nodup
  rw [hstack, List.nodup_append] at hnodup
  have hname : name ∉ above := fun hmem =>
    hnodup.2.2 name hmem name List.mem_cons_self rfl
  rw [close, if_pos hroot, hstack, popTo_append hname]

/-- A name that leads to no smaller number than its own completes its group, and the invariant holds
again. -/
theorem Followed.invariant_of_eq (h : Followed g chain name base s)
    (hroot : s.lowOf name = s.indexOf name) :
    Invariant g chain (s.close name (decide (name ∈ g.dependencies name))) := by
  obtain ⟨above, hstack, -⟩ := h.stack
  rw [close_of_eq h hstack hroot]
  have hinv := h.invariant
  have hlinked := hinv.linked
  have hsorted := hinv.sorted
  have hnodup := hinv.nodup
  rw [hstack, List.pairwise_append, List.pairwise_cons] at hlinked hsorted
  rw [hstack, List.append_cons, List.nodup_append] at hnodup
  have hbase : ∀ x ∈ above ++ [name], x ∉ base :=
    fun x hx hxbase => hnodup.2.2 x hx x hxbase rfl
  have hcomplete : ∀ x, s.Entered x ∧ x ∉ base ↔ s.Complete x ∨ x ∈ above ++ [name] := by
    intro x
    constructor
    · rintro ⟨hentered, hx⟩
      by_cases hmem : x ∈ s.stack
      · exact Or.inr (((mem_stack_iff hstack).mp hmem).resolve_right hx)
      · exact Or.inl ⟨hentered, hmem⟩
    · rintro (⟨hentered, hx⟩ | hx)
      · exact ⟨hentered, fun hxbase => hx (h.base_subset x hxbase)⟩
      · exact ⟨hinv.entered x ((mem_stack_iff hstack).mpr (Or.inl hx)), hbase x hx⟩
  refine ⟨?_, fun x hx => hinv.entered x (h.base_subset x hx), hinv.indexOf_lt, hsorted.2.1.2,
    hlinked.2.1.2, h.chain_base, ?_, ?_, ?_, ?_⟩
  · intro x
    show x ∈ s.onStack.filter _ ↔ x ∈ base
    rw [List.mem_filter, decide_eq_true_eq, hinv.onStack_iff, mem_stack_iff hstack]
    constructor
    · rintro ⟨hx | hx, hnot⟩
      · exact absurd hx hnot
      · exact hx
    · intro hx
      exact ⟨Or.inr hx, fun hmem => hbase x hmem hx⟩
  · intro x hx
    obtain ⟨y, hy, hle, hxy⟩ := hinv.leads_to_chain x (h.base_subset x hx)
    rcases List.mem_cons.mp hy with rfl | hy
    · exact absurd hle (Nat.not_le_of_lt (h.indexOf_base_lt x hx))
    · exact ⟨y, hy, hle, hxy⟩
  · intro x hx hchain y hedge
    by_cases hname : x = name
    · exact h.targets_entered y (hname ▸ hedge)
    · exact hinv.followed x hx (by simp [hname, hchain]) y hedge
  · intro x hx y hedge
    refine (hcomplete y).mpr ?_
    rcases (hcomplete x).mp hx with hx | hx
    · exact Or.inl (hinv.closed x hx y hedge)
    · exact (h.complete_of_edge hstack hroot x hx y hedge).symm
  · have hdone : (fun x => s.Entered x ∧ x ∉ base) =
        fun x => s.Complete x ∨ x ∈ above ++ [name] := funext fun x => propext (hcomplete x)
    show CycleGroups.Sound g (fun x => s.Entered x ∧ x ∉ base) _
    rw [hdone]
    exact h.sound hstack hroot

end Group

/-- Closing a group leaves the lowest numbers as they are. -/
@[simp] theorem low_close (s : CycleSearch) (name : String) (selfReference : Bool) :
    (s.close name selfReference).low = s.low := by
  rw [close]
  split <;> rfl

/-- It keeps all that was known of names. -/
theorem KeepsExcept.close (s : CycleSearch) (name : String) (selfReference : Bool) :
    KeepsExcept none s (s.close name selfReference) where
  entered x hx := by rwa [Entered, index_close]
  indexOf x _ := by simp only [CycleSearch.indexOf, index_close]
  lowOf x _ _ := by simp only [CycleSearch.lowOf, low_close]

/-- When the search leaves `name`, the invariant holds for the chain without it. -/
theorem Followed.connected (h : Followed g chain name s.stack s') (hnew : ¬ s.Entered name)
    (hkeeps : KeepsExcept (some name) s s') (hnext : s.next ≤ s'.indexOf name) :
    Connected g chain name s (s'.close name (decide (name ∈ g.dependencies name))) := by
  have hclose := KeepsExcept.close s' name (decide (name ∈ g.dependencies name))
  have hentered : s'.Entered name := h.invariant.entered name h.mem_stack
  have hindex := hclose.indexOf name hentered
  have hlow := hclose.lowOf name hentered (by simp)
  have hkeeps' : KeepsExcept none s
      (s'.close name (decide (name ∈ g.dependencies name))) := by
    refine ⟨fun x hx => hclose.entered x (hkeeps.entered x hx), ?_, ?_⟩
    · intro x hx
      rw [hclose.indexOf x (hkeeps.entered x hx), hkeeps.indexOf x hx]
    · intro x hx _
      have hne : some x ≠ some name := fun heq => hnew (Option.some.inj heq ▸ hx)
      rw [hclose.lowOf x (hkeeps.entered x hx) (by simp), hkeeps.lowOf x hx hne]
  obtain ⟨above, hstack, hcross⟩ := h.stack
  by_cases hroot : s'.lowOf name = s'.indexOf name
  · refine ⟨h.invariant_of_eq hroot, hkeeps', hclose.entered name hentered, ⟨[], ?_, ?_⟩, ?_, ?_⟩
    · rw [close_of_eq h hstack hroot, List.nil_append]
    · exact fun x hx => absurd hx List.not_mem_nil
    · rwa [hindex]
    · rw [hindex, hlow]
      exact Or.inl hroot
  · have hsame : s'.close name (decide (name ∈ g.dependencies name)) = s' := by
      rw [CycleSearch.close, if_neg hroot]
    rw [hsame] at hkeeps' ⊢
    refine ⟨h.invariant_of_ne hroot, hkeeps', hentered, ⟨above ++ [name], ?_, ?_⟩, hnext,
      Or.inr h.low_reached⟩
    · rw [hstack, List.append_assoc, List.singleton_append]
    · intro x hx y hy hedge
      rcases List.mem_append.mp hx with hx | hx
      · exact hcross x hx y hy hedge
      · exact h.targets_crossing y hy (List.mem_singleton.mp hx ▸ hedge)

end Steps

/-- What following the references of `name` to `targets` gives. -/
structure FollowedAll (g : ReferenceGraph) (chain : List String) (name : String)
    (base targets : List String) (s s' : CycleSearch) : Prop
    extends Following g chain name base s' where
  keeps : KeepsExcept (some name) s s'
  low_mono : s'.lowOf name ≤ s.lowOf name
  targets_entered : ∀ y ∈ targets, s'.Entered y
  targets_crossing : ∀ y ∈ targets, y ∈ base → s'.lowOf name ≤ s'.indexOf y

/-- A target that has been followed, before the rest of the targets. -/
theorem FollowedAll.cons {g : ReferenceGraph} {chain base rest : List String}
    {name target : String} {s s₁ s' : CycleSearch}
    (hkeeps : KeepsExcept (some name) s s₁) (hmono : s₁.lowOf name ≤ s.lowOf name)
    (hentered : s₁.Entered target)
    (hcross : target ∈ base → s₁.lowOf name ≤ s₁.indexOf target)
    (h : FollowedAll g chain name base rest s₁ s') :
    FollowedAll g chain name base (target :: rest) s s' := by
  refine ⟨h.toFollowing, hkeeps.trans h.keeps, Nat.le_trans h.low_mono hmono, ?_, ?_⟩
  · intro y hy
    rcases List.mem_cons.mp hy with rfl | hy
    · exact h.keeps.entered y hentered
    · exact h.targets_entered y hy
  · intro y hy hbase
    rcases List.mem_cons.mp hy with rfl | hy
    · rw [h.keeps.indexOf y hentered]
      exact Nat.le_trans h.low_mono (hcross hbase)
    · exact h.targets_crossing y hy hbase

end CycleSearch

namespace ReferenceGraph

open CycleSearch

mutual

/-- Entering and following a new name, to which all of the stack leads, keeps the invariant. -/
theorem connect_spec (g : ReferenceGraph) (name : String) (s : CycleSearch)
    (hname : name ∈ g.names) (hnew : name ∉ s.index.keys) {chain : List String}
    (hinv : Invariant g chain s) (hleads : ∀ x ∈ s.stack, ReflTransGen g.Edge x name) :
    Connected g chain name s (g.connect name s hname hnew).1 := by
  have hfollowing := hinv.enter hnew hleads
  have hall := g.connectAll_spec name (g.dependencies name) (s.enter name)
    (fun _ h => mem_names_of_mem_dependencies h) hfollowing fun _ h => h
  have hkeeps : KeepsExcept (some name) s (s.enter name) := by
    have hkeeps := KeepsExcept.enter hnew
    exact ⟨hkeeps.entered, hkeeps.indexOf, fun x hx _ => hkeeps.lowOf x hx (by simp)⟩
  have hfollowed : Followed g chain name s.stack _ :=
    ⟨hall.toFollowing, hall.targets_entered,
      fun y hy hedge => hall.targets_crossing y hedge hy⟩
  rw [connect]
  refine hfollowed.connected hnew (hkeeps.trans hall.keeps) (Nat.le_of_eq ?_)
  rw [hall.keeps.indexOf name (mem_index_enter.mpr (Or.inr rfl)), indexOf_enter_self]
termination_by (remaining g.names s.index.keys, 0)
decreasing_by
  exact Prod.Lex.left _ _
    (remaining_lt hname hnew fun _ h => CycleSearch.mem_index_enter.mpr h)

/-- Following references of `name` one after the other keeps what holds while it is followed. -/
theorem connectAll_spec (g : ReferenceGraph) (name : String) (targets : List String)
    (s : CycleSearch) (htargets : ∀ target ∈ targets, target ∈ g.names)
    {chain base : List String} (h : Following g chain name base s)
    (hedges : ∀ target ∈ targets, g.Edge name target) :
    FollowedAll g chain name base targets s (g.connectAll name targets s htargets).1 := by
  match targets, htargets, hedges with
  | [], _, _ =>
      rw [connectAll]
      exact ⟨h, ⟨fun _ hx => hx, fun _ _ => rfl, fun _ _ _ => rfl⟩, Nat.le_refl _,
        fun _ hy => absurd hy List.not_mem_nil, fun _ hy => absurd hy List.not_mem_nil⟩
  | target :: rest, htargets, hedges =>
      have hrest : ∀ t ∈ rest, g.Edge name t := fun t ht => hedges t (List.mem_cons_of_mem _ ht)
      have hedge : g.Edge name target := hedges target List.mem_cons_self
      rw [connectAll]
      by_cases hnew : target ∈ s.index.keys
      · rw [dif_pos hnew]
        by_cases hstack : target ∈ s.onStack
        · rw [if_pos hstack]
          have hmem : target ∈ s.stack := (h.invariant.onStack_iff target).mp hstack
          refine FollowedAll.cons (KeepsExcept.lower s name (s.indexOf target)) ?_ ?_ ?_
            (g.connectAll_spec name rest _ _ (h.lower_of_mem hedge hmem) hrest)
          · rw [lowOf_lower_self]
            exact Nat.min_le_right _ _
          · rwa [Entered, index_lower]
          · intro _
            rw [lowOf_lower_self, indexOf_lower]
            exact Nat.min_le_left _ _
        · rw [if_neg hstack]
          refine FollowedAll.cons ⟨fun _ hx => hx, fun _ _ => rfl, fun _ _ _ => rfl⟩
            (Nat.le_refl _) hnew ?_ (g.connectAll_spec name rest _ _ h hrest)
          intro hbase
          exact absurd ((h.invariant.onStack_iff target).mpr (h.base_subset target hbase)) hstack
      · rw [dif_neg hnew]
        have hname : s.Entered name := h.invariant.entered name h.mem_stack
        have hleads : ∀ x ∈ s.stack, ReflTransGen g.Edge x target :=
          fun x hx => (h.leads_to x hx).tail hedge
        have hc := g.connect_spec target s (htargets target List.mem_cons_self) hnew
          h.invariant hleads
        have hkeeps := hc.keeps
        refine FollowedAll.cons (KeepsExcept.trans ?_ (KeepsExcept.lower _ name _)) ?_ ?_ ?_
          (g.connectAll_spec name rest _ _ (h.connect hedge hc) hrest)
        · exact ⟨hkeeps.entered, hkeeps.indexOf, fun x hx _ => hkeeps.lowOf x hx (by simp)⟩
        · rw [lowOf_lower_self, hkeeps.lowOf name hname (by simp)]
          exact Nat.min_le_right _ _
        · rw [Entered, index_lower]
          exact hc.entered
        · intro hbase
          exact absurd (h.invariant.entered target (h.base_subset target hbase)) hnew
termination_by (remaining g.names s.index.keys, targets.length + 1)
decreasing_by
  · simpa only [index_lower] using Prod.Lex.right _ (by simp)
  · exact Prod.Lex.right _ (by simp)
  · exact Prod.Lex.right _ (by simp)
  · rw [index_lower]
    exact Prod.Lex.right' _ (remaining_after_le _) (by simp)

end

end ReferenceGraph

end OpenApiZod
