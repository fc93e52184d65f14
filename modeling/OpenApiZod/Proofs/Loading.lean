import Mathlib.Data.List.Basic
import Mathlib.Logic.Relation
import Mathlib.Tactic.Tauto
import OpenApiZod.Remaining
import OpenApiZod.Table

/-!
# Loading modules

A module is evaluated when it is loaded, after the modules that it imports, in the order of its
imports. Where imports lead in a circle, a module that is loaded already is passed over, and whoever
imports it is evaluated first. That does not matter to an import that is not needed before later.

`load` is this walk. It evaluates all that it can reach (`load_spec`), so a module that is needed by
one that it leads to comes too late if it is loaded first. Hence every order of loading evaluates
each module after those that it needs exactly if no needed module leads back
(`initialised_load_iff`).
-/

open Relation

namespace OpenApiZod

/-- Loads modules one after the other; `modules` tells what each of them imports. A module is
evaluated after those that it imports; modules that have been evaluated, or whose imports are being
loaded, are passed over. `stack` lists the modules whose imports are being loaded and `evaluated`
those that have been evaluated, first to last. -/
def load (modules : Table (List String)) (stack targets evaluated : List String) : List String :=
  match targets with
  | [] => evaluated
  | target :: rest =>
    if _hstack : target ∈ stack then load modules stack rest evaluated
    else if target ∈ evaluated then load modules stack rest evaluated
    else match _himports : modules.get? target with
      | none => load modules stack rest evaluated
      | some imports =>
        load modules stack rest (load modules (stack ++ [target]) imports evaluated ++ [target])
termination_by (remaining modules.keys stack, targets.length)
decreasing_by
  · exact Prod.Lex.right _ (by simp)
  · exact Prod.Lex.right _ (by simp)
  · exact Prod.Lex.right _ (by simp)
  · exact Prod.Lex.left _ _ (remaining_append_lt (Table.mem_keys_of_get? _himports) _hstack)
  · exact Prod.Lex.right _ (by simp)

/-- The module `a` imports the module `b`. -/
def Imports (modules : Table (List String)) (a b : String) : Prop :=
  (∃ imports, modules.get? a = some imports ∧ b ∈ imports) ∧ b ∈ modules.keys

/-- No module of a list comes before one that it needs. -/
def Initialised (needs : String → String → Prop) (order : List String) : Prop :=
  ∀ before a after, order = before ++ a :: after → ∀ b, needs a b → b ∈ before

/-- Nothing has been evaluated before there was anything to load. -/
theorem Initialised.nil (needs : String → String → Prop) : Initialised needs [] := by
  intro before a after heq
  exact absurd heq.symm (List.append_ne_nil_of_right_ne_nil _ (List.cons_ne_nil _ _))

/-- A module whose needs have been met may come next. -/
theorem Initialised.snoc {needs : String → String → Prop} {order : List String} {a : String}
    (h : Initialised needs order) (ha : ∀ b, needs a b → b ∈ order) :
    Initialised needs (order ++ [a]) := by
  intro before other after heq
  rcases List.eq_nil_or_concat' after with rfl | ⟨init, last, rfl⟩
  · obtain ⟨rfl, hlast⟩ := List.append_inj' heq rfl
    rw [← List.head_eq_of_cons_eq hlast]
    exact ha
  · have hassoc : before ++ other :: (init ++ [last]) = (before ++ other :: init) ++ [last] := by
      rw [List.append_assoc, List.cons_append]
    rw [hassoc] at heq
    exact h before other init (List.append_inj' heq rfl).1

/-- All that a module of an initialised list needs, directly or not, comes before it. -/
theorem Initialised.mem_of_transGen {needs : String → String → Prop}
    {before after : List String} {a b : String} (h : Initialised needs (before ++ a :: after))
    (hab : TransGen needs a b) : b ∈ before := by
  induction hab with
  | single hb => exact h before a after rfl _ hb
  | tail _ hbc ih =>
      obtain ⟨front, rest, rfl⟩ := List.append_of_mem ih
      refine List.mem_append_left _ (h front _ (rest ++ a :: after) ?_ _ hbc)
      rw [List.append_assoc, List.cons_append]

/-- A module that needs itself, directly or not, has no place in such a list. -/
theorem Initialised.not_mem_of_transGen {needs : String → String → Prop} {order : List String}
    {a : String} (h : Initialised needs order) (ha : TransGen needs a a) : a ∉ order := by
  intro hmem
  obtain ⟨before, after, rfl, hfirst⟩ := List.eq_append_cons_of_mem hmem
  exact hfirst (h.mem_of_transGen ha)

section Load

variable {modules : Table (List String)}
  {stack targets rest evaluated evaluated' order : List String} {target : String}

/-- All that evaluated modules import has been evaluated or is being loaded. -/
def Finished (modules : Table (List String)) (stack order : List String) : Prop :=
  ∀ a ∈ order, ∀ b, Imports modules a b → b ∈ order ∨ b ∈ stack

/-- What loading `targets` gives: modules that had been evaluated still are, the targets are unless
they are being loaded, so is what evaluated modules import, and nothing that is being loaded has
been evaluated on the way. -/
structure Loaded (modules : Table (List String)) (stack targets evaluated order : List String) :
    Prop where
  kept : ∀ a ∈ evaluated, a ∈ order
  reached : ∀ target ∈ targets, target ∈ modules.keys → target ∈ order ∨ target ∈ stack
  finished : Finished modules stack evaluated → Finished modules stack order
  apart : ∀ a ∈ order, a ∈ evaluated ∨ a ∉ stack

/-- A target that is passed over has been evaluated, is being loaded, or is no module. -/
theorem Loaded.pass (h : Loaded modules stack rest evaluated order)
    (htarget : target ∈ modules.keys → target ∈ evaluated ∨ target ∈ stack) :
    Loaded modules stack (target :: rest) evaluated order where
  kept := h.kept
  reached other hother hkey := by
    rcases List.mem_cons.mp hother with rfl | hother
    · exact (htarget hkey).imp_left (h.kept other)
    · exact h.reached other hother hkey
  finished := h.finished
  apart := h.apart

/-- A target that is loaded is evaluated after what it imports. -/
theorem Loaded.evaluate {imports : List String} (himports : modules.get? target = some imports)
    (hstack : target ∉ stack) (h : Loaded modules (stack ++ [target]) imports evaluated evaluated')
    (hrest : Loaded modules stack rest (evaluated' ++ [target]) order) :
    Loaded modules stack (target :: rest) evaluated order where
  kept a ha := hrest.kept a (List.mem_append_left _ (h.kept a ha))
  reached other hother hkey := by
    rcases List.mem_cons.mp hother with rfl | hother
    · exact Or.inl (hrest.kept other (List.mem_append_right _ List.mem_cons_self))
    · exact hrest.reached other hother hkey
  finished hfinished := by
    refine hrest.finished fun a ha b hb => ?_
    have hinner : b ∈ evaluated' ∨ b ∈ stack ++ [target] := by
      rcases List.mem_append.mp ha with ha | ha
      · refine h.finished (fun a ha b hb => ?_) a ha b hb
        exact (hfinished a ha b hb).imp_right (List.mem_append_left _)
      · obtain ⟨⟨imports', himports', hmem⟩, hkey⟩ := hb
        rw [List.mem_singleton.mp ha, himports] at himports'
        exact h.reached b (Option.some.inj himports' ▸ hmem) hkey
    simp only [List.mem_append, List.mem_singleton] at hinner ⊢
    tauto
  apart a ha := by
    rcases hrest.apart a ha with ha | ha
    · rcases List.mem_append.mp ha with ha | ha
      · exact (h.apart a ha).imp_right fun hnew hmem => hnew (List.mem_append_left _ hmem)
      · exact Or.inr (List.mem_singleton.mp ha ▸ hstack)
    · exact Or.inr ha

/-- What loading does, whatever the modules import. -/
theorem load_spec (modules : Table (List String)) (stack targets evaluated : List String) :
    Loaded modules stack targets evaluated (load modules stack targets evaluated) := by
  fun_induction load modules stack targets evaluated with
  | case1 stack evaluated =>
      exact ⟨fun _ h => h, fun _ h => absurd h List.not_mem_nil, id, fun _ h => Or.inl h⟩
  | case2 stack evaluated target rest hstack ih => exact ih.pass fun _ => Or.inr hstack
  | case3 stack evaluated target rest hstack hdone ih => exact ih.pass fun _ => Or.inl hdone
  | case4 stack evaluated target rest hstack hdone hnone ih =>
      exact ih.pass fun hkey => absurd hkey (Table.get?_eq_none_iff.mp hnone)
  | case5 stack evaluated target rest hstack hdone imports himports ihimports ihrest =>
      exact ihimports.evaluate himports hstack ihrest

/-- What is loaded first is evaluated with all that it leads to, and last. -/
theorem load_singleton (hkey : target ∈ modules.keys) :
    ∃ before, load modules [] [target] [] = before ++ [target] ∧ target ∉ before ∧
      ∀ a, ReflTransGen (Imports modules) target a → a ∈ before ++ [target] := by
  obtain ⟨imports, himports⟩ := Table.mem_keys_iff.mp hkey
  have hload : load modules [] [target] [] = load modules [target] imports [] ++ [target] := by
    rw [load, dif_neg List.not_mem_nil, if_neg List.not_mem_nil]
    split
    · rename_i hnone
      rw [himports] at hnone
      cases hnone
    · rename_i imports' himports'
      rw [himports] at himports'
      obtain rfl := Option.some.inj himports'
      rw [load, List.nil_append]
  have hinner := load_spec modules [target] imports []
  have houter := load_spec modules [] [target] []
  refine ⟨_, hload, fun hmem => ?_, fun a ha => ?_⟩
  · exact (hinner.apart target hmem).elim List.not_mem_nil fun h => h List.mem_cons_self
  · rw [← hload]
    induction ha with
    | refl => exact (houter.reached target List.mem_cons_self hkey).resolve_right List.not_mem_nil
    | tail _ hab ih =>
        have hfinished := houter.finished fun _ h => absurd h List.not_mem_nil
        exact (hfinished _ ih _ hab).resolve_right List.not_mem_nil

variable {needs : String → String → Prop} (hneeds : ∀ a b, needs a b → Imports modules a b)
include hneeds

/-- Modules are evaluated after those that they need, if none of these leads back. -/
theorem initialised_load (hback : ∀ a b, needs a b → ¬ ReflTransGen (Imports modules) b a)
    (stack targets evaluated : List String) (h : Initialised needs evaluated)
    (hstack : ∀ target ∈ targets, target ∈ modules.keys →
      ∀ a ∈ stack, TransGen (Imports modules) a target) :
    Initialised needs (load modules stack targets evaluated) := by
  fun_induction load modules stack targets evaluated with
  | case1 => exact h
  | case2 stack evaluated target rest hmem ih | case3 stack evaluated target rest hmem hdone ih
  | case4 stack evaluated target rest hmem hdone hnone ih =>
      exact ih h fun t ht => hstack t (List.mem_cons_of_mem _ ht)
  | case5 stack evaluated target rest hmem hdone imports himports ihimports ihrest =>
      have hkey : target ∈ modules.keys := Table.mem_keys_of_get? himports
      have hreach : ∀ a ∈ stack ++ [target], ReflTransGen (Imports modules) a target := by
        intro a ha
        rcases List.mem_append.mp ha with ha | ha
        · exact (hstack target List.mem_cons_self hkey a ha).to_reflTransGen
        · rw [List.mem_singleton.mp ha]
      have hinner := load_spec modules (stack ++ [target]) imports evaluated
      refine ihrest (.snoc (ihimports h fun t ht htkey a ha => ?_) fun b hb => ?_)
        fun t ht => hstack t (List.mem_cons_of_mem _ ht)
      · exact TransGen.tail' (hreach a ha) ⟨⟨imports, himports, ht⟩, htkey⟩
      · obtain ⟨⟨imports', himports', hmem'⟩, hbkey⟩ := hneeds target b hb
        rw [himports] at himports'
        obtain rfl := Option.some.inj himports'
        -- A needed module that is being loaded would lead back here.
        exact (hinner.reached b hmem' hbkey).resolve_right fun hb' =>
          hback target b hb (hreach b hb')

/-- Every order of loading evaluates each module after those that it needs exactly if none of these
leads back to it: one that does is evaluated too late if it is loaded first. -/
theorem initialised_load_iff :
    (∀ entries, Initialised needs (load modules [] entries [])) ↔
      ∀ a b, needs a b → ¬ ReflTransGen (Imports modules) b a := by
  constructor
  · intro hall a b hb hback
    obtain ⟨before, hload, hlast, hreach⟩ := load_singleton (hneeds a b hb).2
    have hinit := hall [b]
    rw [hload] at hinit
    rcases List.mem_append.mp (hreach a hback) with ha | ha
    · obtain ⟨front, rest, rfl⟩ := List.append_of_mem ha
      refine hlast (List.mem_append_left _ (hinit front a (rest ++ [b]) ?_ b hb))
      rw [List.append_assoc, List.cons_append]
    · obtain rfl := List.mem_singleton.mp ha
      exact hlast (hinit before a [] rfl a hb)
  · intro hback entries
    exact initialised_load hneeds hback [] entries [] (.nil needs)
      fun _ _ _ _ ha => absurd ha List.not_mem_nil

end Load

end OpenApiZod
