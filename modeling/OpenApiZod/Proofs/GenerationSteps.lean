import OpenApiZod.Proofs.ConversionRun
import OpenApiZod.Proofs.Generation

/-!
# Generation step by step

`ComponentGenerator.generate` says what comes of a request. This is how it gets there: `Move` lists
what happens between two points of a run, with the chain, the recorded references and the cached
files as they are just then. A request pushes its component on the chain, converts it, and requests
its targets one after the other; when all have been answered, it pops the chain, renders the file
and caches it. A request that has made another one waits for its answer.

A run is a sequence of moves. At each point there is at most one (`Move.unique`), so of two runs
from one point the longer goes on from the end of the shorter (`Run.rest_of_final`), and no run
goes on for ever if one comes to an end (`Leads.ends`). From each request the run comes to the
answer that `generate` gives, with the progress that it makes (`leads_generate`), and from the
start it comes to the answers to all requests (`leads_requests`).
-/

namespace OpenApiZod.ComponentGenerator

/-! ### Points of a run -/

/-- A request that has converted its component: the validator, what the file imports so far, and the
targets that have not been requested yet. -/
structure OpenRequest where
  name : String
  component : Component
  validator : Validator
  imports : List String
  targets : List String

/-- What the innermost request does. Between two requests from outside there is none. -/
inductive Activity
  | idle
  | requested (name : String)
  | converting (name : String) (component : Component)
  | importing (request : OpenRequest)
  | rendering (request : OpenRequest)
  | answered (answer : Option GeneratedFile)

/-- What a run keeps: the chain, the requests that wait for one that they have made, innermost
first, what has been produced, and the requests from outside, those still to be made and the
answers to the others. -/
structure RunState where
  chain : List String
  waiting : List OpenRequest
  progress : Progress
  agenda : List String
  answers : List (Option GeneratedFile)

/-- A point of a run. -/
structure Point where
  activity : Activity
  state : RunState

/-- Where a run begins that requests the names, one after the other. -/
def Point.start (names : List String) : Point := ⟨.idle, [], [], .start, names, []⟩

/-- Where a run ends: all requests have been answered. -/
def Point.final (answers : List (Option GeneratedFile)) (p : Progress) : Point :=
  ⟨.idle, [], [], p, [], answers⟩

/-- Adds a warning. -/
def RunState.warn (s : RunState) (w : Warning) : RunState :=
  { s with progress := s.progress.warn w }

/-- The session in which the next component is converted: the chain is its path. -/
def RunState.session (g : ComponentGenerator) (s : RunState) : Session :=
  ⟨g.scope, s.chain, s.progress.graph, []⟩

/-! ### Moves -/

/-- The work that is done on a component. -/
inductive Event
  | converted (name : String)
  | rendered (name : String)
deriving DecidableEq, Repr

/-- One move from a point to the next, with the work that it does. -/
inductive Move (g : ComponentGenerator) : Point → List Event → Point → Prop
  | next {s : RunState} {name : String} {rest : List String} (hagenda : s.agenda = name :: rest) :
      Move g ⟨.idle, s⟩ [] ⟨.requested name, { s with agenda := rest }⟩
  | cached {s : RunState} {name : String} {file : GeneratedFile}
      (hcache : s.progress.cache.get? name = some file) :
      Move g ⟨.requested name, s⟩ [] ⟨.answered (some file), s⟩
  | circular {s : RunState} {name : String} (hcache : name ∉ s.progress.cache.keys)
      (hchain : name ∈ s.chain) :
      Move g ⟨.requested name, s⟩ []
        ⟨.answered none, s.warn (.circular (s.chain ++ [name]))⟩
  | unknown {s : RunState} {name : String} (hcache : name ∉ s.progress.cache.keys)
      (hchain : name ∉ s.chain) (hunknown : g.components.get? name = none) :
      Move g ⟨.requested name, s⟩ [] ⟨.answered none, s.warn (.unresolved name)⟩
  | enter {s : RunState} {name : String} {c : Component} (hcache : name ∉ s.progress.cache.keys)
      (hchain : name ∉ s.chain) (hc : g.components.get? name = some c) :
      Move g ⟨.requested name, s⟩ []
        ⟨.converting name c, { s with chain := s.chain ++ [name] }⟩
  | convert {s : RunState} {name : String} {c : Component} {v : Validator} {graph : ReferenceGraph}
      (hconvert : g.scope.convert s.chain name false c.shape = v)
      (hrecord : s.progress.graph.recordAll name (recordedTargets name false v) = graph) :
      Move g ⟨.converting name c, s⟩ [.converted name]
        ⟨.importing ⟨name, c, v, [], graph.dependencies name⟩,
          { s with progress := { s.progress with graph := graph } }⟩
  | skip {s : RunState} {r : OpenRequest} {target : String} {rest : List String}
      (htargets : r.targets = target :: rest) (hunknown : target ∉ g.components.keys) :
      Move g ⟨.importing r, s⟩ []
        ⟨.importing { r with targets := rest }, s.warn (.unknownShape r.name target)⟩
  | request {s : RunState} {r : OpenRequest} {target : String} {rest : List String}
      (htargets : r.targets = target :: rest) (hkey : target ∈ g.components.keys) :
      Move g ⟨.importing r, s⟩ []
        ⟨.requested target, { s with
          waiting := { r with imports := r.imports ++ [target], targets := rest } :: s.waiting }⟩
  | leave {s : RunState} {r : OpenRequest} (htargets : r.targets = []) :
      Move g ⟨.importing r, s⟩ [] ⟨.rendering r, { s with chain := s.chain.dropLast }⟩
  | render {s : RunState} {r : OpenRequest} {file : GeneratedFile}
      (hfile : g.file r.component r.validator r.imports = file) :
      Move g ⟨.rendering r, s⟩ [.rendered r.name]
        ⟨.answered (some file), { s with
          progress := { s.progress with cache := s.progress.cache.insert r.name file } }⟩
  | resume {s : RunState} {answer : Option GeneratedFile} {r : OpenRequest}
      {rest : List OpenRequest} (hwaiting : s.waiting = r :: rest) :
      Move g ⟨.answered answer, s⟩ [] ⟨.importing r, { s with waiting := rest }⟩
  | answer {s : RunState} {answer : Option GeneratedFile} (hwaiting : s.waiting = []) :
      Move g ⟨.answered answer, s⟩ [] ⟨.idle, { s with answers := s.answers ++ [answer] }⟩

/-- Moves one after the other, with all the work that they do. -/
inductive Run (g : ComponentGenerator) : Point → List Event → Point → Prop
  | refl (x : Point) : Run g x [] x
  | head {x y z : Point} {events events' : List Event} (hmove : Move g x events y)
      (hrest : Run g y events' z) : Run g x (events ++ events') z

/-- The run from `x` comes to `y`. -/
def Leads (g : ComponentGenerator) (x y : Point) : Prop := ∃ events, Run g x events y

/-- No run from `x` goes on for ever. -/
def Ends (g : ComponentGenerator) (x : Point) : Prop :=
  Acc (fun y x => ∃ events, Move g x events y) x

section Runs

variable {g : ComponentGenerator} {x y z : Point} {events events' : List Event}

/-- Runs may follow each other, and their work adds up. -/
theorem Run.trans (h : Run g x events y) (h' : Run g y events' z) :
    Run g x (events ++ events') z := by
  induction h with
  | refl => exact h'
  | head hmove _ ih =>
      rw [List.append_assoc]
      exact .head hmove (ih h')

/-- Every point leads to itself. -/
theorem Leads.refl (x : Point) : Leads g x x := ⟨[], .refl x⟩

/-- What a point leads to leads on. -/
theorem Leads.trans (h : Leads g x y) (h' : Leads g y z) : Leads g x z := by
  obtain ⟨_, hrun⟩ := h
  obtain ⟨_, hrun'⟩ := h'
  exact ⟨_, hrun.trans hrun'⟩

/-- A move leads where it goes. -/
theorem Move.leads (h : Move g x events y) : Leads g x y := ⟨_, .head h (.refl y)⟩

/-- A request has one move: whether the name is cached, on the chain or a component decides which.
-/
theorem Move.unique_requested {s : RunState} {name : String}
    (h : Move g ⟨.requested name, s⟩ events y) (h' : Move g ⟨.requested name, s⟩ events' z) :
    events = events' ∧ y = z := by
  cases h with
  | cached hcache =>
      cases h' with
      | cached hcache' =>
          obtain rfl := Option.some.inj (hcache.symm.trans hcache')
          exact ⟨rfl, rfl⟩
      | circular hnew | unknown hnew | enter hnew =>
          exact absurd (Table.mem_keys_of_get? hcache) hnew
  | circular hnew hchain =>
      cases h' with
      | cached hcache => exact absurd (Table.mem_keys_of_get? hcache) hnew
      | circular => exact ⟨rfl, rfl⟩
      | unknown _ hfree | enter _ hfree => exact absurd hchain hfree
  | unknown hnew hfree hunknown =>
      cases h' with
      | cached hcache => exact absurd (Table.mem_keys_of_get? hcache) hnew
      | circular _ hchain => exact absurd hchain hfree
      | unknown => exact ⟨rfl, rfl⟩
      | enter _ _ hc => exact nomatch hunknown.symm.trans hc
  | enter hnew hfree hc =>
      cases h' with
      | cached hcache => exact absurd (Table.mem_keys_of_get? hcache) hnew
      | circular _ hchain => exact absurd hchain hfree
      | unknown _ _ hunknown => exact nomatch hunknown.symm.trans hc
      | enter _ _ hc' =>
          obtain rfl := Option.some.inj (hc.symm.trans hc')
          exact ⟨rfl, rfl⟩

/-- So has a component that collects its imports: the next target decides, or that there is none. -/
theorem Move.unique_importing {s : RunState} {r : OpenRequest}
    (h : Move g ⟨.importing r, s⟩ events y) (h' : Move g ⟨.importing r, s⟩ events' z) :
    events = events' ∧ y = z := by
  cases h with
  | skip htargets hunknown =>
      cases h' with
      | skip htargets' =>
          obtain ⟨rfl, rfl⟩ := List.cons.inj (htargets.symm.trans htargets')
          exact ⟨rfl, rfl⟩
      | request htargets' hkey =>
          obtain ⟨rfl, -⟩ := List.cons.inj (htargets.symm.trans htargets')
          exact absurd hkey hunknown
      | leave hnone => exact nomatch htargets.symm.trans hnone
  | request htargets hkey =>
      cases h' with
      | skip htargets' hunknown =>
          obtain ⟨rfl, -⟩ := List.cons.inj (htargets.symm.trans htargets')
          exact absurd hkey hunknown
      | request htargets' =>
          obtain ⟨rfl, rfl⟩ := List.cons.inj (htargets.symm.trans htargets')
          exact ⟨rfl, rfl⟩
      | leave hnone => exact nomatch htargets.symm.trans hnone
  | leave hnone =>
      cases h' with
      | skip htargets | request htargets => exact nomatch htargets.symm.trans hnone
      | leave => exact ⟨rfl, rfl⟩

/-- And so has an answer: somebody waits for it, or nobody does. -/
theorem Move.unique_answered {s : RunState} {answer : Option GeneratedFile}
    (h : Move g ⟨.answered answer, s⟩ events y) (h' : Move g ⟨.answered answer, s⟩ events' z) :
    events = events' ∧ y = z := by
  cases h with
  | resume hwaiting =>
      cases h' with
      | resume hwaiting' =>
          obtain ⟨rfl, rfl⟩ := List.cons.inj (hwaiting.symm.trans hwaiting')
          exact ⟨rfl, rfl⟩
      | answer hnobody => exact nomatch hwaiting.symm.trans hnobody
  | answer hnobody =>
      cases h' with
      | resume hwaiting => exact nomatch hwaiting.symm.trans hnobody
      | answer => exact ⟨rfl, rfl⟩

/-- No point has two moves. -/
theorem Move.unique (h : Move g x events y) (h' : Move g x events' z) :
    events = events' ∧ y = z := by
  obtain ⟨activity, s⟩ := x
  cases activity with
  | requested name => exact h.unique_requested h'
  | importing r => exact h.unique_importing h'
  | answered answer => exact h.unique_answered h'
  | idle =>
      cases h with
      | next hagenda =>
          cases h' with
          | next hagenda' =>
              obtain ⟨rfl, rfl⟩ := List.cons.inj (hagenda.symm.trans hagenda')
              exact ⟨rfl, rfl⟩
  | converting name c =>
      cases h with
      | convert hconvert hrecord =>
          cases h' with
          | convert hconvert' hrecord' =>
              obtain rfl := hconvert.symm.trans hconvert'
              obtain rfl := hrecord.symm.trans hrecord'
              exact ⟨rfl, rfl⟩
  | rendering r =>
      cases h with
      | render hfile =>
          cases h' with
          | render hfile' =>
              obtain rfl := hfile.symm.trans hfile'
              exact ⟨rfl, rfl⟩

/-- At the end of a run there is no move. -/
theorem Move.not_final {answers : List (Option GeneratedFile)} {p : Progress} :
    ¬ Move g (.final answers p) events y := by
  intro h
  rw [Point.final] at h
  cases h with
  | next hagenda => cases hagenda

/-- A run that has come to its end passes all points that a run from the same point comes to. -/
theorem Run.rest_of_final (h : Run g x events y) (hfinal : ∀ events' z, ¬ Move g y events' z)
    (h' : Run g x events' z) : ∃ rest, Run g z rest y ∧ events = events' ++ rest := by
  induction h' generalizing events with
  | refl x => exact ⟨events, h, rfl⟩
  | head hmove _ ih =>
      cases h with
      | refl => exact absurd hmove (hfinal _ _)
      | head hmove' hrest =>
          obtain ⟨rfl, rfl⟩ := hmove.unique hmove'
          obtain ⟨rest, hrun, rfl⟩ := ih hrest
          exact ⟨rest, hrun, (List.append_assoc ..).symm⟩

/-- Since the moves of a run are the only ones, it is enough that one run comes to an end. -/
theorem Leads.ends (h : Leads g x y) (hfinal : ∀ events z, ¬ Move g y events z) : Ends g x := by
  obtain ⟨events, hrun⟩ := h
  induction hrun with
  | refl y => exact .intro y fun z ⟨_, hmove⟩ => absurd hmove (hfinal _ _)
  | @head x _ _ _ _ hmove _ ih =>
      refine .intro x fun z ⟨_, hmove'⟩ => ?_
      obtain ⟨-, rfl⟩ := hmove.unique hmove'
      exact ih hfinal

end Runs

/-! ### Requests -/

mutual

/-- From a request the run comes to the answer that generation gives. -/
theorem leads_generate (g : ComponentGenerator) (name : String) (s : RunState) :
    Leads g ⟨.requested name, s⟩ ⟨.answered (g.generate s.chain name s.progress).1,
      { s with progress := (g.generate s.chain name s.progress).2 }⟩ := by
  rw [generate]
  cases hcache : s.progress.cache.get? name with
  | some file => exact (Move.cached hcache).leads
  | none =>
      have hnew : name ∉ s.progress.cache.keys := Table.get?_eq_none_iff.mp hcache
      by_cases hmem : name ∈ s.chain
      · simp only [dif_pos hmem]
        exact (Move.circular hnew hmem).leads
      · simp only [dif_neg hmem]
        split
        · rename_i hnone
          exact (Move.unknown hnew hmem hnone).leads
        · rename_i c hc
          have hless : remaining g.components.keys (s.chain ++ [name]) <
              remaining g.components.keys s.chain :=
            remaining_append_lt (Table.mem_keys_of_get? hc) hmem
          have hconverted := (Move.enter hnew hmem hc).leads.trans (Move.convert rfl rfl).leads
          refine (hconverted.trans (leads_generateAll g _ _ _ _ _ _)).trans ?_
          refine (Move.leave rfl).leads.trans ?_
          simp only [List.dropLast_concat, List.nil_append]
          exact (Move.render rfl).leads
termination_by (remaining g.components.keys s.chain, 0)
decreasing_by
  exact Prod.Lex.left _ _ hless

/-- From the targets of a request the run comes to where all of them have been answered. -/
theorem leads_generateAll (g : ComponentGenerator) (name : String) (c : Component) (v : Validator)
    (imports targets : List String) (s : RunState) :
    Leads g ⟨.importing ⟨name, c, v, imports, targets⟩, s⟩
      ⟨.importing ⟨name, c, v, imports ++ (g.generateAll name s.chain targets s.progress).1, []⟩,
        { s with progress := (g.generateAll name s.chain targets s.progress).2 }⟩ := by
  match targets with
  | [] =>
      rw [generateAll, List.append_nil]
      exact .refl _
  | target :: rest =>
      rw [generateAll]
      by_cases hkey : target ∈ g.components.keys
      · rw [if_pos (Table.contains_iff.mpr hkey)]
        have hanswered := leads_generate g target
          { s with waiting := ⟨name, c, v, imports ++ [target], rest⟩ :: s.waiting }
        have hrest := leads_generateAll g name c v (imports ++ [target]) rest
          { s with progress := (g.generate s.chain target s.progress).2 }
        rw [List.append_assoc] at hrest
        exact ((Move.request rfl hkey).leads.trans hanswered).trans
          ((Move.resume rfl).leads.trans hrest)
      · rw [if_neg fun hcontains => hkey (Table.contains_iff.mp hcontains)]
        have hrest := leads_generateAll g name c v imports rest
          (s.warn (.unknownShape name target))
        exact (Move.skip rfl hkey).leads.trans hrest
termination_by (remaining g.components.keys s.chain, targets.length + 1)

end

/-- Requests from outside are answered one after the other. -/
theorem leads_requests (g : ComponentGenerator) (names : List String) (p : Progress)
    (answers : List (Option GeneratedFile)) :
    Leads g ⟨.idle, [], [], p, names, answers⟩
      (.final (answers ++ (g.requests names p).1) (g.requests names p).2) := by
  induction names generalizing p answers with
  | nil =>
      rw [requests, List.append_nil]
      exact .refl _
  | cons name rest ih =>
      have hanswered := leads_generate g name ⟨[], [], p, rest, answers⟩
      have hrest := ih (g.generate [] name p).2 (answers ++ [(g.generate [] name p).1])
      rw [List.append_assoc] at hrest
      exact ((Move.next rfl).leads.trans hanswered).trans ((Move.answer rfl).leads.trans hrest)

/-- From every point of a run it goes on to its end. -/
theorem Run.leads_final {g : ComponentGenerator} {names : List String} {events : List Event}
    {x : Point} (h : Run g (.start names) events x) :
    Leads g x (.final (g.requests names .start).1 (g.requests names .start).2) := by
  obtain ⟨_, hfinal⟩ := leads_requests g names .start []
  obtain ⟨rest, hrest, -⟩ := hfinal.rest_of_final (fun _ _ => Move.not_final) h
  exact ⟨rest, hrest⟩

/-! ### Conversions -/

/-- Converting a component for its own module puts no other component in place of a reference, so
the chain stays as it is while the references are recorded. -/
theorem convertWithin_zero_session (g : ComponentGenerator) (s : RunState) (name : String)
    (shape : Shape) :
    Session.convertWithin 0 name false shape (s.session g) =
      some ((s.session g).convert name false (some shape)) := by
  have hfits : Scope.Fits g.components false s.chain 0 shape := by
    intro names hnames
    cases hnames
    exact Nat.le_refl 0
  rw [(Session.answers_convertWithin shape).answer hfits (s.session g) rfl rfl]
  exact congrArg some (Session.noteAll_uses_convert name false (s.session g) shape)

end OpenApiZod.ComponentGenerator
