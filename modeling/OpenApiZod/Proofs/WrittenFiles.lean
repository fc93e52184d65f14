import OpenApiZod.Proofs.Writing

/-!
# Refused paths

A run of writing texts below a base is a run of any first part of them, followed by a run of the
others (`Output.writeAllOn_append`), and it ends at a path that leads elsewhere than down
(`Output.writeAllOn_refused`). So it leaves what the texts before the first such path leave.

The main result puts this together (`Output.writeAll_confined`): where the storage does all that it
is asked for, a run fails exactly if some path leads elsewhere than down; and in no case is anything
changed outside the base.
-/

namespace OpenApiZod

namespace Path

/-- Whether a path is absolute, starts with `.`, or goes up somewhere. -/
def LeadsElsewhere (path : String) : Prop :=
  isAbsolute path = true ∨ (parts path).head? = some "." ∨ ".." ∈ parts path

instance : DecidablePred LeadsElsewhere := fun path =>
  inferInstanceAs (Decidable (isAbsolute path = true ∨ (parts path).head? = some "." ∨
    ".." ∈ parts path))

/-- A path leads nowhere else exactly if it goes nowhere but down. -/
theorem not_leadsElsewhere_iff {path : String} :
    ¬ LeadsElsewhere path ↔ isDescending path = true := by
  rw [LeadsElsewhere, isDescending_iff, not_or, not_or, Bool.not_eq_true]

/-- A path that leads elsewhere is refused. -/
theorem LeadsElsewhere.isDescending {path : String} (h : LeadsElsewhere path) :
    isDescending path = false := by
  rw [← Bool.not_eq_true]
  exact fun hdown => not_leadsElsewhere_iff.mpr hdown h

end Path

namespace FileSystem

/-- Outside the base all texts stay as they are. -/
theorem ChangesBelow.content?_eq {fs fs' : FileSystem} {base : String}
    (h : fs.ChangesBelow base fs') {at_ : Location}
    (houtside : ¬ Path.resolve fs.workingDirectory base <+: at_) :
    fs'.content? at_ = fs.content? at_ := by
  rw [content?, content?]
  rcases h.lookup at_ with hbelow | heq | ⟨-, hnone, hmade⟩
  · exact absurd hbelow houtside
  · rw [heq]
  · rw [hnone, hmade]

/-- Outside a base that can be reached nothing changes. -/
theorem ChangesBelow.lookup_eq {fs fs' : FileSystem} {base : String}
    (h : fs.ChangesBelow base fs')
    (hway : ∀ on ∈ Path.way fs.workingDirectory base, fs.isDirectory on = true) {at_ : Location}
    (houtside : ¬ Path.resolve fs.workingDirectory base <+: at_) :
    fs'.lookup at_ = fs.lookup at_ := by
  rcases h.lookup at_ with hbelow | heq | ⟨hmem, hnone, -⟩
  · exact absurd hbelow houtside
  · exact heq
  · have hdirectory := hway at_ hmem
    rw [isDirectory, hnone] at hdirectory
    cases hdirectory

end FileSystem

namespace Output

/-! ### Runs in two parts -/

/-- A run goes on after its first part unless that has failed. -/
theorem writeAllOn_append (base : String) (before after : List Output) (fs : FileSystem) :
    writeAllOn base (before ++ after) fs =
      match writeAllOn base before fs with
      | (none, fs') => writeAllOn base after fs'
      | failed => failed := by
  induction before generalizing fs with
  | nil => rfl
  | cons o rest ih =>
      rw [List.cons_append, writeAllOn_cons_eq, writeAllOn_cons_eq]
      cases (write base o : StateM FileSystem (Option OutputError)).run fs with
      | mk error fs' =>
          cases error with
          | none => exact ih fs'
          | some error => rfl

/-- At a refused path a run ends with the files as they are. -/
theorem writeAllOn_refused (base : String) {o : Output} (h : Path.LeadsElsewhere o.path)
    (after : List Output) (fs : FileSystem) :
    writeAllOn base (o :: after) fs = (some (.outside o.path base), fs) := by
  rw [writeAllOn_cons_eq, write, h.isDescending]
  rfl

/-! ### What a run does -/

/-- If storage does not fail in a run whose first refused path is at `o`, what is before `o` is
written, and nothing else. -/
theorem writeAllOn_first_refused {base : String} {before after : List Output} {o : Output}
    {fs : FileSystem} (hbefore : ∀ o' ∈ before, ¬ Path.LeadsElsewhere o'.path)
    (ho : Path.LeadsElsewhere o.path)
    (hstorage : ∀ path, (writeAllOn base (before ++ o :: after) fs).1 ≠ some (.directory path) ∧
      (writeAllOn base (before ++ o :: after) fs).1 ≠ some (.file path)) :
    ∃ fs', writeAllOn base before fs = (none, fs') ∧
      writeAllOn base (before ++ o :: after) fs = (some (.outside o.path base), fs') := by
  have hdown : ∀ o' ∈ before, Path.isDescending o'.path = true := fun o' ho' =>
    Path.not_leadsElsewhere_iff.mp (hbefore o' ho')
  have hrefused := writeAll_not_refused base fs hdown
  rw [writeAllOn_append] at hstorage ⊢
  cases hrun : writeAllOn base before fs with
  | mk error fs' =>
      rw [hrun] at hstorage hrefused
      cases error with
      | none => exact ⟨fs', rfl, writeAllOn_refused base ho after fs'⟩
      | some error =>
          cases error with
          | outside path directory => exact absurd rfl (hrefused path directory)
          | directory path => exact absurd rfl (hstorage path).1
          | file path => exact absurd rfl (hstorage path).2

/-- If storage does not fail in a run, the run fails exactly if it meets a refused path. -/
theorem writeAllOn_fails_iff {base : String} {outputs : List Output} {fs : FileSystem}
    (hstorage : ∀ path, (writeAllOn base outputs fs).1 ≠ some (.directory path) ∧
      (writeAllOn base outputs fs).1 ≠ some (.file path)) :
    (writeAllOn base outputs fs).1 ≠ none ↔ ∃ o ∈ outputs, Path.LeadsElsewhere o.path := by
  constructor
  · intro hfails
    by_contra hnone
    have hdown : ∀ o ∈ outputs, Path.isDescending o.path = true := fun o ho =>
      Path.not_leadsElsewhere_iff.mp fun h => hnone ⟨o, ho, h⟩
    obtain ⟨error, herror⟩ := Option.ne_none_iff_exists'.mp hfails
    cases error with
    | outside path directory => exact writeAll_not_refused base fs hdown path directory herror
    | directory path => exact (hstorage path).1 herror
    | file path => exact (hstorage path).2 herror
  · rintro ⟨o, ho, helsewhere⟩ hsucceeds
    have hwritten : writeAllOn base outputs fs = (none, (writeAllOn base outputs fs).2) :=
      Prod.ext hsucceeds rfl
    exact Path.not_leadsElsewhere_iff.mpr ((writeAll_written hwritten).1 o ho) helsewhere

/-- **Writing is confined.** Writing texts below a base, whatever their paths are, changes no text
outside the base, and nothing at all outside it if the way to the base is there; else it makes no
more there than the missing directories on this way.

If storage does all that it is asked for, writing fails exactly if a path is absolute, starts with
`.` or goes up somewhere. It then leaves what writing all texts before the first such path leaves,
and nothing else. Without such a path each location holds the last text that belongs there, and what
it held before if there is none. -/
theorem writeAll_confined (base : String) (outputs : List Output) (fs : FileSystem) :
    let run := writeAllOn base outputs fs
    let here := fs.workingDirectory
    (∀ at_, ¬ Path.resolve here base <+: at_ →
      run.2.content? at_ = fs.content? at_ ∧
      ((∀ on ∈ Path.way here base, fs.isDirectory on = true) →
        run.2.lookup at_ = fs.lookup at_)) ∧
    fs.ChangesBelow base run.2 ∧
    ((∀ path, run.1 ≠ some (.directory path) ∧ run.1 ≠ some (.file path)) →
      (run.1 ≠ none ↔ ∃ o ∈ outputs, Path.LeadsElsewhere o.path) ∧
      (∀ before o after, outputs = before ++ o :: after →
        (∀ o' ∈ before, ¬ Path.LeadsElsewhere o'.path) → Path.LeadsElsewhere o.path →
          ∃ fs', writeAllOn base before fs = (none, fs') ∧
            Written base before fs fs' ∧ run = (some (.outside o.path base), fs')) ∧
      ((∀ o ∈ outputs, ¬ Path.LeadsElsewhere o.path) →
        (∀ o ∈ outputs, o.place here base = Path.resolve here base ++ Path.names o.path) ∧
        Written base outputs fs run.2 ∧
        ∀ at_, run.2.content? at_ =
          ((lastAt? here base at_ outputs).map text).or (fs.content? at_))) := by
  intro run here
  have hbelow := changesBelow_writeAll base outputs fs
  have houtside : ∀ at_, ¬ Path.resolve here base <+: at_ → run.2.content? at_ = fs.content? at_ ∧
      ((∀ on ∈ Path.way here base, fs.isDirectory on = true) →
        run.2.lookup at_ = fs.lookup at_) :=
    fun at_ h => ⟨hbelow.content?_eq h, fun hway => hbelow.lookup_eq hway h⟩
  refine ⟨houtside, hbelow, fun hstorage => ⟨writeAllOn_fails_iff hstorage, ?_, ?_⟩⟩
  · rintro before o after rfl hbefore ho
    obtain ⟨fs', hwritten, hrun⟩ := writeAllOn_first_refused hbefore ho hstorage
    exact ⟨fs', hwritten, written_of_writeAllOn hwritten, hrun⟩
  · intro hdown
    have hsucceeds : run.1 = none := by
      by_contra hfails
      obtain ⟨o, ho, helsewhere⟩ := (writeAllOn_fails_iff hstorage).mp hfails
      exact hdown o ho helsewhere
    have hwritten : Written base outputs fs run.2 :=
      written_of_writeAllOn (Prod.ext hsucceeds rfl)
    exact ⟨fun o ho => Path.resolve_join (Path.not_leadsElsewhere_iff.mp (hdown o ho)) here base,
      hwritten, hwritten.content?_eq⟩

/-- Of four texts the first two belong at one place, where the second stays. The third is refused,
so the fourth is not written. -/
theorem writeAll_confined_up :
    let outputs : List Output :=
      [⟨"a/b.ts", "1"⟩, ⟨"a//b.ts", "2"⟩, ⟨"a/../c.ts", "3"⟩, ⟨"d.ts", "4"⟩]
    let fs : FileSystem := .start ["home"]
    let run := writeAllOn "out" outputs fs
    (∃ fs', writeAllOn "out" (outputs.take 2) fs = (none, fs') ∧
      run = (some (.outside "a/../c.ts" "out"), fs')) ∧
    run.2.content? ["home", "out", "a", "b.ts"] = some "2" ∧
    ∀ at_, ¬ ["home", "out"] <+: at_ → run.2.content? at_ = fs.content? at_ := by
  intro outputs fs run
  have hresult : run.1 = some (.outside "a/../c.ts" "out") := by decide +kernel
  obtain ⟨houtside, -, hstorage⟩ := writeAll_confined "out" outputs fs
  obtain ⟨-, hfirst, -⟩ := hstorage fun path =>
    ⟨fun h => (nomatch hresult.symm.trans h), fun h => nomatch hresult.symm.trans h⟩
  obtain ⟨fs', hbefore, hwritten, hrun⟩ := hfirst (outputs.take 2) ⟨"a/../c.ts", "3"⟩
    [⟨"d.ts", "4"⟩] rfl (by decide) (by decide)
  have hplace : Path.resolve fs.workingDirectory "out" = ["home", "out"] := by decide
  refine ⟨⟨fs', hbefore, hrun⟩, ?_, fun at_ h => (houtside at_ (hplace ▸ h)).1⟩
  have hlast : lastAt? fs.workingDirectory "out" ["home", "out", "a", "b.ts"] (outputs.take 2) =
      some ⟨"a//b.ts", "2"⟩ := by decide
  rw [show run.2 = fs' from congrArg Prod.snd hrun, hwritten.content?_eq, hlast]
  rfl

end Output

end OpenApiZod
