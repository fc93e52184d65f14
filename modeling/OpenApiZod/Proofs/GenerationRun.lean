import Mathlib.Data.List.Chain
import Mathlib.Data.List.Perm.Subperm
import OpenApiZod.Proofs.GenerationSteps

/-!
# What holds at every point of generation

Generation keeps three things that change at different moments. A component comes on the chain
first, its references are recorded next, and its file is cached when the files of all that it
refers to have been requested. A request that comes back to a component on the chain finds it half
finished: its references are there and its file is not.

`Nested` ties the three together. The chain consists of the requests that wait for each other, with
the component that is being converted at its end. Each of them has recorded its references, and has
requested the next one because it refers to it; none of them is cached. `Accounted` says what work
has been done by then: what is on the chain or cached has been converted, and what is cached has
been rendered. Each move keeps both (`Nested.move`, `Accounted.move`), so a run does (`Nested.run`,
`Accounted.run`).

So a component that is requested again is on the chain or cached, and is not generated a second
time (`run_renders_once`).
-/

namespace OpenApiZod.ComponentGenerator

/-! ### The chain at a point -/

/-- The requests that the innermost one adds to those that wait. -/
def Activity.opened : Activity → List OpenRequest
  | .importing r => [r]
  | _ => []

/-- The component that is on the chain but not converted yet. -/
def Activity.entered : Activity → List String
  | .converting name _ => [name]
  | _ => []

/-- The component that is off the chain but not rendered yet. -/
def Activity.left : Activity → List String
  | .rendering r => [r.name]
  | _ => []

/-- The requests whose component is converted and on the chain, innermost first. -/
def Point.opened (x : Point) : List OpenRequest := x.activity.opened ++ x.state.waiting

/-- The components of these requests. -/
def Point.openedNames (x : Point) : List String := x.opened.map OpenRequest.name

/-- How the chain, the recorded references and the cached files fit together. -/
structure Nested (g : ComponentGenerator) (x : Point) : Prop where
  chain : x.state.chain = x.openedNames.reverse ++ x.activity.entered
  nodup : (x.state.chain ++ x.activity.left).Nodup
  linked : x.state.chain.IsChain x.state.progress.graph.Edge
  known : ∀ name ∈ x.state.chain, name ∈ g.components.keys
  pending : ∀ name ∈ x.state.chain ++ x.activity.left, name ∉ x.state.progress.cache.keys
  /-- What is still to be requested has been recorded. -/
  targets : ∀ r ∈ x.opened, ∀ target ∈ r.targets, x.state.progress.graph.Edge r.name target
  /-- A request is made for the last component of the chain. -/
  requested : ∀ name, x.activity = .requested name → ∀ last ∈ x.state.chain.getLast?,
    x.state.progress.graph.Edge last name
  idle : x.activity = .idle → x.state.waiting = []

/-- What two points have in common if no component comes on the chain, or is converted, or leaves
it, or is rendered between them. -/
structure Alike (x y : Point) : Prop where
  chain : y.state.chain = x.state.chain
  graph : y.state.progress.graph = x.state.progress.graph
  cache : y.state.progress.cache = x.state.progress.cache
  opened : y.openedNames = x.openedNames
  entered : y.activity.entered = x.activity.entered
  left : y.activity.left = x.activity.left

section Nested

variable {g : ComponentGenerator} {x y : Point} {events events' : List Event} {s : RunState}

/-- Before the first request nothing is on the chain, and nothing waits. -/
theorem Nested.start (names : List String) : Nested g (.start names) where
  chain := rfl
  nodup := List.nodup_nil
  linked := List.isChain_nil
  known _ h := absurd h List.not_mem_nil
  pending _ h := absurd h List.not_mem_nil
  targets _ h := absurd h List.not_mem_nil
  requested _ h := nomatch h
  idle _ := rfl

/-- Where the chain, the graph and the cache stay, a request may be made of a target and a target
may be taken off a list. -/
theorem Nested.alike (h : Nested g x) (hxy : Alike x y)
    (htargets : ∀ r ∈ y.opened, ∀ target ∈ r.targets, x.state.progress.graph.Edge r.name target)
    (hrequested : ∀ name, y.activity = .requested name → ∀ last ∈ x.state.chain.getLast?,
      x.state.progress.graph.Edge last name)
    (hidle : y.activity = .idle → y.state.waiting = []) : Nested g y where
  chain := by rw [hxy.chain, hxy.opened, hxy.entered, h.chain]
  nodup := by rw [hxy.chain, hxy.left]; exact h.nodup
  linked := by rw [hxy.chain, hxy.graph]; exact h.linked
  known := by rw [hxy.chain]; exact h.known
  pending := by rw [hxy.chain, hxy.left, hxy.cache]; exact h.pending
  targets := by rw [hxy.graph]; exact htargets
  requested := by rw [hxy.chain, hxy.graph]; exact hrequested
  idle := hidle

/-- The last component of the chain has requested the one that comes next. -/
theorem Nested.enter {name : String} {c : Component} (h : Nested g ⟨.requested name, s⟩)
    (hcache : name ∉ s.progress.cache.keys) (hchain : name ∉ s.chain)
    (hc : g.components.get? name = some c) :
    Nested g ⟨.converting name c, { s with chain := s.chain ++ [name] }⟩ where
  chain := congrArg (· ++ [name]) (h.chain.trans (List.append_nil _))
  nodup := by
    rw [show Activity.left (.converting name c) = [] from rfl, List.append_nil,
      ← List.concat_eq_append]
    exact .concat hchain h.nodup.of_append_left
  linked := by
    refine List.isChain_append.mpr ⟨h.linked, List.isChain_singleton name, ?_⟩
    intro last hlast first hfirst
    obtain rfl : name = first := Option.some.inj hfirst
    exact h.requested name rfl last hlast
  known other hother := by
    rcases List.mem_append.mp hother with hother | hother
    · exact h.known other hother
    · exact List.mem_singleton.mp hother ▸ Table.mem_keys_of_get? hc
  pending other hother := by
    rcases List.mem_append.mp ((List.append_nil _) ▸ hother) with hother | hother
    · exact h.pending other (List.mem_append_left _ hother)
    · exact List.mem_singleton.mp hother ▸ hcache
  targets := h.targets
  requested _ hactivity := nomatch hactivity
  idle hactivity := nomatch hactivity

/-- Recording adds references, and the targets of the component are those that are recorded. -/
theorem Nested.convert {name : String} {c : Component} {v : Validator} {targets : List String}
    (h : Nested g ⟨.converting name c, s⟩) :
    let graph := s.progress.graph.recordAll name targets
    Nested g ⟨.importing ⟨name, c, v, [], graph.dependencies name⟩,
      { s with progress := { s.progress with graph := graph } }⟩ where
  chain := by
    refine h.chain.trans ?_
    show (s.waiting.map OpenRequest.name).reverse ++ [name] =
      (name :: s.waiting.map OpenRequest.name).reverse ++ []
    rw [List.reverse_cons, List.append_nil]
  nodup := h.nodup
  linked := h.linked.imp fun a b hedge =>
    (ReferenceGraph.edge_recordAll_iff _ name targets a b).mpr (Or.inl hedge)
  known := h.known
  pending := h.pending
  targets r hr target htarget := by
    rcases List.mem_cons.mp hr with rfl | hr
    · exact htarget
    · exact (ReferenceGraph.edge_recordAll_iff _ _ _ _ _).mpr
        (Or.inl (h.targets r hr target htarget))
  requested _ hactivity := nomatch hactivity
  idle hactivity := nomatch hactivity

/-- While a request goes through its targets, its component is the last of the chain. -/
theorem Nested.chain_importing {r : OpenRequest} (h : Nested g ⟨.importing r, s⟩) :
    s.chain = (s.waiting.map OpenRequest.name).reverse ++ [r.name] := by
  refine h.chain.trans ?_
  show (r.name :: s.waiting.map OpenRequest.name).reverse ++ [] = _
  rw [List.reverse_cons, List.append_nil]

/-- A target that has been taken off the list is not needed any more. -/
theorem Nested.targets_rest {r : OpenRequest} {target : String} {rest : List String}
    (h : Nested g ⟨.importing r, s⟩) (htargets : r.targets = target :: rest)
    (imports : List String) :
    ∀ other ∈ { r with imports := imports, targets := rest } :: s.waiting,
      ∀ target ∈ other.targets, s.progress.graph.Edge other.name target := by
  intro other hother next hnext
  rcases List.mem_cons.mp hother with rfl | hother
  · exact h.targets r List.mem_cons_self next (htargets ▸ List.mem_cons_of_mem target hnext)
  · exact h.targets other (List.mem_cons_of_mem r hother) next hnext

/-- A component whose imports are complete is the last on the chain, and leaves it. -/
theorem Nested.leave {r : OpenRequest} (h : Nested g ⟨.importing r, s⟩) :
    Nested g ⟨.rendering r, { s with chain := s.chain.dropLast }⟩ where
  chain := by
    show s.chain.dropLast = (s.waiting.map OpenRequest.name).reverse ++ []
    rw [h.chain_importing, List.dropLast_concat, List.append_nil]
  nodup := by
    show (s.chain.dropLast ++ [r.name]).Nodup
    rw [h.chain_importing, List.dropLast_concat, ← h.chain_importing]
    exact h.nodup.of_append_left
  linked := h.linked.dropLast
  known name hname := h.known name (List.dropLast_subset _ hname)
  pending := by
    show ∀ name ∈ s.chain.dropLast ++ [r.name], name ∉ s.progress.cache.keys
    rw [h.chain_importing, List.dropLast_concat, ← h.chain_importing]
    exact fun name hname => h.pending name (List.mem_append_left _ hname)
  targets other hother := h.targets other (List.mem_cons_of_mem r hother)
  requested _ hactivity := nomatch hactivity
  idle hactivity := nomatch hactivity

/-- The component that is cached is not on the chain any more. -/
theorem Nested.render {r : OpenRequest} {file : GeneratedFile} (h : Nested g ⟨.rendering r, s⟩) :
    Nested g ⟨.answered (some file), { s with
      progress := { s.progress with cache := s.progress.cache.insert r.name file } }⟩ where
  chain := h.chain
  nodup := (List.append_nil s.chain).symm ▸ h.nodup.of_append_left
  linked := h.linked
  known := h.known
  pending name hname := by
    replace hname : name ∈ s.chain := (List.append_nil s.chain) ▸ hname
    rw [Table.keys_insert, mem_appendNew, not_or]
    refine ⟨h.pending name (List.mem_append_left _ hname), fun heq => ?_⟩
    exact (List.nodup_append.mp h.nodup).2.2 name hname r.name List.mem_cons_self heq
  targets := h.targets
  requested _ hactivity := nomatch hactivity
  idle hactivity := nomatch hactivity

/-- Every move keeps the chain, the recorded references and the cached files together. -/
theorem Nested.move (h : Nested g x) (hmove : Move g x events y) : Nested g y := by
  cases hmove with
  | @next s name rest hagenda =>
      refine h.alike ⟨rfl, rfl, rfl, rfl, rfl, rfl⟩ h.targets ?_ nofun
      -- Nothing waits, so the chain has no last component that would have to refer to the name.
      intro _ _ last hlast
      have hwaiting : s.waiting = [] := h.idle rfl
      rw [h.chain, Point.openedNames, Point.opened, hwaiting] at hlast
      exact nomatch hlast
  | cached => exact h.alike ⟨rfl, rfl, rfl, rfl, rfl, rfl⟩ h.targets nofun nofun
  | circular => exact h.alike ⟨rfl, rfl, rfl, rfl, rfl, rfl⟩ h.targets nofun nofun
  | unknown => exact h.alike ⟨rfl, rfl, rfl, rfl, rfl, rfl⟩ h.targets nofun nofun
  | enter hcache hchain hc => exact h.enter hcache hchain hc
  | convert hconvert hrecord =>
      subst hrecord
      exact h.convert
  | skip htargets =>
      exact h.alike ⟨rfl, rfl, rfl, rfl, rfl, rfl⟩ (h.targets_rest htargets _) nofun nofun
  | @request s r target rest htargets hkey =>
      refine h.alike ⟨rfl, rfl, rfl, rfl, rfl, rfl⟩ (h.targets_rest htargets _) ?_ nofun
      intro name hname last hlast
      obtain rfl := Activity.requested.inj hname
      rw [h.chain_importing, List.getLast?_concat] at hlast
      obtain rfl := Option.some.inj hlast
      exact h.targets r List.mem_cons_self target (htargets ▸ List.mem_cons_self)
  | leave htargets => exact h.leave
  | render hfile => exact h.render
  | @resume s answer r rest hwaiting =>
      have hopened : Point.opened ⟨.importing r, { s with waiting := rest }⟩ =
          Point.opened ⟨.answered answer, s⟩ := hwaiting.symm
      refine h.alike ⟨rfl, rfl, rfl, ?_, rfl, rfl⟩ ?_ nofun nofun
      · rw [Point.openedNames, hopened, Point.openedNames]
      · rw [hopened]
        exact h.targets
  | answer hwaiting =>
      exact h.alike ⟨rfl, rfl, rfl, rfl, rfl, rfl⟩ h.targets nofun fun _ => hwaiting

/-- A component that is being generated is not cached, so no cached file is replaced. -/
theorem Nested.cache_move (h : Nested g x) (hmove : Move g x events y) {name : String}
    {file : GeneratedFile} (hcache : x.state.progress.cache.get? name = some file) :
    y.state.progress.cache.get? name = some file := by
  cases hmove with
  | @render s r other hfile =>
      have hne : name ≠ r.name := by
        rintro rfl
        exact h.pending r.name (List.mem_append_right _ List.mem_cons_self)
          (Table.mem_keys_of_get? hcache)
      exact (Table.get?_insert_of_ne _ _ hne).trans hcache
  | _ => exact hcache

/-- What a move keeps a run keeps. -/
theorem Nested.run (h : Nested g x) (hrun : Run g x events y) : Nested g y := by
  induction hrun with
  | refl => exact h
  | head hmove _ ih => exact ih (h.move hmove)

/-- No run replaces a cached file. -/
theorem Nested.cache_run (h : Nested g x) (hrun : Run g x events y) {name : String}
    {file : GeneratedFile} (hcache : x.state.progress.cache.get? name = some file) :
    y.state.progress.cache.get? name = some file := by
  induction hrun with
  | refl => exact hcache
  | head hmove _ ih => exact ih (h.move hmove) (h.cache_move hmove hcache)

/-- There are no more components on the chain than in the table. -/
theorem Nested.length_chain_le (h : Nested g x) : x.state.chain.length ≤ g.components.size := by
  have hle := (h.nodup.of_append_left.subperm h.known).length_le
  rwa [Table.keys, List.length_map] at hle

/-- The component of every request that waits is on the chain. -/
theorem Nested.length_waiting_le (h : Nested g x) :
    x.state.waiting.length ≤ x.state.chain.length := by
  rw [h.chain, Point.openedNames, Point.opened, List.length_append, List.length_reverse,
    List.length_map, List.length_append]
  omega

/-- Between two requests from outside the chain is empty. -/
theorem Nested.chain_idle (h : Nested g x) (hidle : x.activity = .idle) : x.state.chain = [] := by
  rw [h.chain, Point.openedNames, Point.opened, h.idle hidle, hidle]
  rfl

end Nested

/-! ### The work that has been done -/

/-- The components that are converted and not rendered yet. -/
def Point.unfinished (x : Point) : List String := x.openedNames ++ x.activity.left

/-- How the work that has been done fits to the chain and the cached files. -/
structure Accounted (events : List Event) (x : Point) : Prop where
  nodup : events.Nodup
  converted : ∀ name, .converted name ∈ events ↔
    name ∈ x.state.progress.cache.keys ∨ name ∈ x.unfinished
  rendered : ∀ name, .rendered name ∈ events ↔ name ∈ x.state.progress.cache.keys

section Accounted

variable {g : ComponentGenerator} {x y : Point} {events events' : List Event} {s : RunState}

/-- Before the first request no work has been done. -/
theorem Accounted.start (names : List String) : Accounted [] (.start names) where
  nodup := List.nodup_nil
  converted _ := by
    constructor
    · exact nofun
    · rintro (h | h) <;> exact nomatch h
  rendered _ := ⟨nofun, nofun⟩

/-- Where nothing is converted or rendered, the account stays. -/
theorem Accounted.same (h : Accounted events x)
    (hcache : y.state.progress.cache = x.state.progress.cache)
    (hunfinished : ∀ name, name ∈ y.unfinished ↔ name ∈ x.unfinished) :
    Accounted (events ++ []) y where
  nodup := by rw [List.append_nil]; exact h.nodup
  converted name := by rw [List.append_nil, hcache, hunfinished]; exact h.converted name
  rendered name := by rw [List.append_nil, hcache]; exact h.rendered name

/-- A component that has just come on the chain has not been converted. -/
theorem Accounted.convert {name : String} {c : Component} {r : OpenRequest}
    {graph : ReferenceGraph} (h : Accounted events ⟨.converting name c, s⟩)
    (hnested : Nested g ⟨.converting name c, s⟩) (hr : r.name = name) :
    Accounted (events ++ [.converted name])
      ⟨.importing r, { s with progress := { s.progress with graph := graph } }⟩ where
  nodup := by
    refine List.concat_eq_append ▸ h.nodup.concat fun hmem => ?_
    have hchain : s.chain = (s.waiting.map OpenRequest.name).reverse ++ [name] := hnested.chain
    have hnodup : s.chain.Nodup := hnested.nodup.of_append_left
    rcases (h.converted name).mp hmem with hcached | hunfinished
    · refine hnested.pending name (List.mem_append_left _ ?_) hcached
      exact hchain ▸ List.mem_append_right _ List.mem_cons_self
    · replace hunfinished : name ∈ s.waiting.map OpenRequest.name :=
        (List.append_nil (s.waiting.map OpenRequest.name)) ▸ hunfinished
      rw [hchain] at hnodup
      exact (List.nodup_append.mp hnodup).2.2 name (List.mem_reverse.mpr hunfinished) name
        List.mem_cons_self rfl
  converted other := by
    have hunfinished : Point.unfinished ⟨.importing r,
        { s with progress := { s.progress with graph := graph } }⟩ =
          name :: Point.unfinished ⟨.converting name c, s⟩ := by
      rw [← hr]
      rfl
    rw [hunfinished, List.mem_append, h.converted, List.mem_singleton, List.mem_cons,
      Event.converted.injEq]
    tauto
  rendered other := by
    rw [List.mem_append, h.rendered, List.mem_singleton]
    exact or_iff_left nofun

/-- A component that has left the chain has not been rendered. -/
theorem Accounted.render {r : OpenRequest} {file : GeneratedFile}
    (h : Accounted events ⟨.rendering r, s⟩) (hnested : Nested g ⟨.rendering r, s⟩) :
    Accounted (events ++ [.rendered r.name]) ⟨.answered (some file), { s with
      progress := { s.progress with cache := s.progress.cache.insert r.name file } }⟩ where
  nodup := by
    refine List.concat_eq_append ▸ h.nodup.concat fun hmem => ?_
    have hcached : r.name ∈ s.progress.cache.keys := (h.rendered r.name).mp hmem
    exact hnested.pending r.name (List.mem_append_right _ List.mem_cons_self) hcached
  converted other := by
    rw [List.mem_append, h.converted, List.mem_singleton, Table.keys_insert, mem_appendNew]
    show (_ ∨ other ∈ s.waiting.map OpenRequest.name ++ [r.name]) ∨ _ ↔
      _ ∨ other ∈ s.waiting.map OpenRequest.name ++ []
    rw [List.mem_append, List.mem_append, List.mem_singleton]
    have hne : Event.converted other ≠ .rendered r.name := nofun
    have hnone : other ∉ [] := List.not_mem_nil
    tauto
  rendered other := by
    rw [List.mem_append, h.rendered, List.mem_singleton, Table.keys_insert, mem_appendNew,
      Event.rendered.injEq]

/-- A move keeps the account: it converts a component when this comes on the chain, and renders one
when its file is cached. -/
theorem Accounted.move (h : Accounted events x) (hnested : Nested g x)
    (hmove : Move g x events' y) : Accounted (events ++ events') y := by
  cases hmove with
  | convert => exact h.convert hnested rfl
  | render => exact h.render hnested
  | @leave s r htargets =>
      -- The component leaves the chain, but it is not rendered yet.
      refine h.same rfl fun name => ?_
      show name ∈ s.waiting.map OpenRequest.name ++ [r.name] ↔
        name ∈ (r.name :: s.waiting.map OpenRequest.name) ++ []
      rw [List.mem_append, List.mem_singleton, List.append_nil, List.mem_cons, or_comm]
  | @resume s answer r rest hwaiting =>
      refine h.same rfl fun name => ?_
      show name ∈ ([r] ++ rest).map OpenRequest.name ++ [] ↔
        name ∈ s.waiting.map OpenRequest.name ++ []
      rw [hwaiting, List.singleton_append]
  | _ => exact h.same rfl fun _ => Iff.rfl

/-- What a move keeps a run keeps, with the work of all its moves. -/
theorem Accounted.run (h : Accounted events x) (hnested : Nested g x)
    (hrun : Run g x events' y) : Accounted (events ++ events') y := by
  induction hrun generalizing events with
  | refl => exact h.same rfl fun _ => Iff.rfl
  | head hmove _ ih =>
      rw [← List.append_assoc]
      exact ih (h.move hnested hmove) (hnested.move hmove)

end Accounted

/-! ### Runs from the start -/

/-- **Generation at every point.** Whatever names are requested one after the other, in whatever
table, generation comes to an end, and to the answers of `requests`; every request on the way comes
to the answer of `generate`. At every point of the run, the chain has different names, all of
components, and each of them has recorded that it refers to the next. So requests are never nested
deeper than there are components. To convert a component leaves the chain as it is, and between two
requests from outside the chain is empty. No cached file is replaced later on. No component is
converted or rendered twice; the rendered ones are those that are cached, and they have been
converted. -/
theorem run_renders_once (g : ComponentGenerator) (names : List String) :
    let last := Point.final (g.requests names .start).1 (g.requests names .start).2
    (∀ events y, ¬ Move g last events y) ∧
      ∀ x events, Run g (.start names) events x →
        (Ends g x ∧ Leads g x last) ∧
        (∀ name, x.activity = .requested name →
          let answer := g.generate x.state.chain name x.state.progress
          Leads g x ⟨.answered answer.1, { x.state with progress := answer.2 }⟩) ∧
        (∀ name c, x.activity = .converting name c →
          Session.convertWithin 0 name false c.shape (x.state.session g) =
            some ((x.state.session g).convert name false (some c.shape))) ∧
        (x.state.chain.Nodup ∧ x.state.chain.IsChain x.state.progress.graph.Edge ∧
          ∀ name ∈ x.state.chain, name ∈ g.components.keys) ∧
        (x.state.waiting.length ≤ x.state.chain.length ∧
          x.state.chain.length ≤ g.components.size) ∧
        (x.activity = .idle → x.state.chain = []) ∧
        (∀ events' y, Run g x events' y → ∀ name file,
          x.state.progress.cache.get? name = some file →
            y.state.progress.cache.get? name = some file) ∧
        events.Nodup ∧
        ∀ name, (.rendered name ∈ events ↔ name ∈ x.state.progress.cache.keys) ∧
          (.rendered name ∈ events → .converted name ∈ events) := by
  intro last
  refine ⟨fun _ _ => Move.not_final, fun x events hrun => ?_⟩
  have hnested : Nested g x := (Nested.start names).run hrun
  have haccounted : Accounted events x :=
    (Accounted.start names).run (Nested.start names) hrun
  have hlast : Leads g x last := hrun.leads_final
  refine ⟨⟨hlast.ends fun _ _ => Move.not_final, hlast⟩, fun name hname => ?_,
    fun name c _ => convertWithin_zero_session g x.state name c.shape,
    ⟨hnested.nodup.of_append_left, hnested.linked, hnested.known⟩,
    ⟨hnested.length_waiting_le, hnested.length_chain_le⟩, hnested.chain_idle,
    fun events' y hlater name file => hnested.cache_run hlater, haccounted.nodup,
    fun name => ⟨haccounted.rendered name, fun hrendered => ?_⟩⟩
  · obtain ⟨activity, s⟩ := x
    obtain rfl : activity = .requested name := hname
    exact leads_generate g name s
  · exact (haccounted.converted name).mpr (Or.inl ((haccounted.rendered name).mp hrendered))

/-- Two components that refer to each other. `B` is generated for `A` and requests `A` again: both
are on the chain and converted, and neither is cached. -/
theorem run_renders_once_cycle :
    let components : ComponentTable := .ofList
      [("A", ⟨"A", none, .reference "B"⟩), ("B", ⟨"B", none, .reference "A"⟩)]
    let g := ofComponents components .default
    ∃ x, Run g (.start ["A"]) [.converted "A", .converted "B"] x ∧
      x.activity = .requested "A" ∧ x.state.chain = ["A", "B"] ∧
      x.state.progress.cache.keys = [] ∧ Ends g x ∧ x.state.progress.graph.Edge "A" "B" := by
  intro components g
  have hA : g.components.get? "A" = some ⟨"A", none, .reference "B"⟩ := rfl
  have hB : g.components.get? "B" = some ⟨"B", none, .reference "A"⟩ := rfl
  have hrecordA : Progress.start.graph.recordAll "A"
      (recordedTargets "A" false (g.scope.convert ["A"] "A" false (.reference "B"))) =
        ReferenceGraph.empty.record "A" "B" := by
    rw [recordedTargets_convert_named _ List.mem_cons_self]
    rfl
  have hrecordB : (ReferenceGraph.empty.record "A" "B").recordAll "B"
      (recordedTargets "B" false (g.scope.convert ["A", "B"] "B" false (.reference "A"))) =
        (ReferenceGraph.empty.record "A" "B").record "B" "A" := by
    rw [recordedTargets_convert_named _ (List.mem_cons_of_mem _ List.mem_cons_self)]
    rfl
  have hnone (name : String) : name ∉ Progress.start.cache.keys := List.not_mem_nil
  have hrun : Run g (.start ["A"]) [.converted "A", .converted "B"] _ :=
    .head (.next rfl) <|
    .head (.enter (hnone "A") List.not_mem_nil hA) <|
    .head (.convert rfl hrecordA) <|
    .head (.request rfl (Table.mem_keys_of_get? hB)) <|
    .head (.enter (hnone "B") (by decide) hB) <|
    .head (.convert rfl hrecordB) <|
    .head (.request rfl (Table.mem_keys_of_get? hA)) <|
    .refl _
  obtain ⟨⟨hends, -⟩, -, -, ⟨-, hlinked, -⟩, -⟩ := (run_renders_once g ["A"]).2 _ _ hrun
  exact ⟨_, hrun, rfl, rfl, rfl, hends, List.isChain_pair.mp hlinked⟩

end OpenApiZod.ComponentGenerator
