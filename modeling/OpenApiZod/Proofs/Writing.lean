import OpenApiZod.Output
import OpenApiZod.Proofs.PathNames

/-!
# Writing below a base

What writing texts below a base directory does to a file system. One text is refused, fails or is
written (`Output.Step`), and nothing else happens than that directories are made on the way to it
and the text is put where its path leads.

After texts have been written, each location holds the last text that belongs there, and otherwise
what stood there, or a directory where nothing stood (`Output.Written`). One text makes such a
change, and two of them in a row make one, so a whole run does (`Output.written_of_writeAllOn`). All
texts stand where they belong unless different ones belong at one place (`Output.writeAll_own_iff`).
Whether writing succeeds or not, nothing changes except below the base and on the way to it
(`Output.changesBelow_writeAll`), and no path that goes nowhere but down is refused
(`Output.writeAll_not_refused`).
-/

namespace OpenApiZod

/-! ### Files and directories -/

namespace FileSystem

/-- `fs'` is `fs` with directories at some locations of `way` where nothing stood. -/
structure AddsDirectories (fs : FileSystem) (way : List Location) (fs' : FileSystem) : Prop where
  workingDirectory : fs'.workingDirectory = fs.workingDirectory
  lookup : ∀ at_, fs'.lookup at_ = fs.lookup at_ ∨
    at_ ∈ way ∧ fs.lookup at_ = none ∧ fs'.lookup at_ = some .directory

/-- Nothing changes if no directory is added. -/
theorem AddsDirectories.refl (fs : FileSystem) (way : List Location) :
    fs.AddsDirectories way fs := ⟨rfl, fun _ => Or.inl rfl⟩

/-- Where nothing stands a directory can be added. -/
theorem addsDirectories_set {fs : FileSystem} {at_ : Location} (h : fs.lookup at_ = none) :
    fs.AddsDirectories [at_] (fs.set at_ .directory) := by
  refine ⟨rfl, fun other => ?_⟩
  by_cases hother : other = at_
  · have hroot : at_ ≠ [] := by
      rintro rfl
      exact nomatch h
    subst hother
    exact Or.inr ⟨List.mem_singleton_self _, h, lookup_set_self fs _ hroot⟩
  · exact Or.inl (lookup_set_of_ne fs _ hother)

/-- Directories that are added in two steps are on the ways of both. -/
theorem AddsDirectories.trans {fs fs' fs'' : FileSystem} {way way' all : List Location}
    (h : fs.AddsDirectories way fs') (h' : fs'.AddsDirectories way' fs'') (hway : way ⊆ all)
    (hway' : way' ⊆ all) : fs.AddsDirectories all fs'' := by
  refine ⟨h'.workingDirectory.trans h.workingDirectory, fun at_ => ?_⟩
  rcases h.lookup at_ with heq | ⟨hmem, hnone, hmade⟩ <;>
    rcases h'.lookup at_ with heq' | ⟨hmem', hnone', hmade'⟩
  · exact Or.inl (heq'.trans heq)
  · exact Or.inr ⟨hway' hmem', heq ▸ hnone', hmade'⟩
  · exact Or.inr ⟨hway hmem, hnone, heq'.trans hmade⟩
  · exact Or.inr ⟨hway hmem, hnone, hmade'⟩

/-- `fs'` is `fs` but for what is below a base, and for directories that were missing on the way to
it. -/
structure ChangesBelow (fs : FileSystem) (base : String) (fs' : FileSystem) : Prop where
  workingDirectory : fs'.workingDirectory = fs.workingDirectory
  lookup : ∀ at_, Path.resolve fs.workingDirectory base <+: at_ ∨ fs'.lookup at_ = fs.lookup at_ ∨
    at_ ∈ Path.way fs.workingDirectory base ∧ fs.lookup at_ = none ∧
      fs'.lookup at_ = some .directory

/-- Files that stay as they are change below no base. -/
theorem ChangesBelow.refl (fs : FileSystem) (base : String) : fs.ChangesBelow base fs :=
  ⟨rfl, fun _ => Or.inr (Or.inl rfl)⟩

/-- Two changes below a base are one change below it. -/
theorem ChangesBelow.trans {fs fs' fs'' : FileSystem} {base : String}
    (h : fs.ChangesBelow base fs') (h' : fs'.ChangesBelow base fs'') :
    fs.ChangesBelow base fs'' := by
  refine ⟨h'.workingDirectory.trans h.workingDirectory, fun at_ => ?_⟩
  have hlater := h'.lookup at_
  rw [h.workingDirectory] at hlater
  rcases h.lookup at_ with hbelow | heq | ⟨hmem, hnone, hmade⟩
  · exact Or.inl hbelow
  · rwa [heq] at hlater
  · rcases hlater with hbelow | heq' | ⟨-, hnone', -⟩
    · exact Or.inl hbelow
    · exact Or.inr (Or.inr ⟨hmem, hnone, heq'.trans hmade⟩)
    · rw [hmade] at hnone'
      exact nomatch hnone'

/-- Making a directory changes nothing but the way to it. -/
theorem AddsDirectories.changesBelow {fs fs' : FileSystem} {base : String}
    (h : fs.AddsDirectories (Path.way fs.workingDirectory base) fs') : fs.ChangesBelow base fs' :=
  ⟨h.workingDirectory, fun at_ => Or.inr (h.lookup at_)⟩

/-- Making directories along parts adds some at the locations that the parts lead through. -/
theorem addsDirectories_makeWay? {fs fs' : FileSystem} {here : Location} {ps : List String}
    (h : fs.makeWay? here ps = some fs') : fs.AddsDirectories (Path.visited here ps) fs' := by
  induction ps generalizing fs here with
  | nil =>
      obtain rfl := Option.some.inj h
      exact AddsDirectories.refl fs _
  | cons p ps ih =>
      have hrest : Path.visited (Path.step here p) ps ⊆ Path.visited here (p :: ps) :=
        List.subset_cons_of_subset _ (List.Subset.refl _)
      rw [makeWay?] at h
      split at h
      · exact (AddsDirectories.refl fs _).trans (ih h) (List.nil_subset _) hrest
      · exact nomatch h
      · rename_i hnone
        split at h
        · refine (addsDirectories_set hnone).trans (ih h) ?_ hrest
          rintro at_ hmem
          obtain rfl := List.mem_singleton.mp hmem
          exact hrest (Path.mem_visited_self _ ps)
        · exact nomatch h

/-- Making the directories of a path adds some on its way. -/
theorem addsDirectories_makeDirectories? {fs fs' : FileSystem} {path : String}
    (h : fs.makeDirectories? path = some fs') :
    fs.AddsDirectories (Path.way fs.workingDirectory path) fs' :=
  addsDirectories_makeWay? h

/-- Walking along parts ends where their names lead. -/
theorem eq_foldl_of_walk? {fs : FileSystem} {here at_ : Location} {ps : List String}
    (h : fs.walk? here ps = some at_) : at_ = ps.foldl Path.step here := by
  induction ps generalizing here with
  | nil => exact (Option.some.inj h).symm
  | cons p ps ih =>
      rw [walk?] at h
      split at h
      · exact ih h
      · exact nomatch h

/-- A text is written to where its path leads, and that is not the root. -/
theorem eq_set_of_write? {fs fs' : FileSystem} {path text : String}
    (h : fs.write? path text = some fs') :
    Path.resolve fs.workingDirectory path ≠ [] ∧
      fs' = fs.set (Path.resolve fs.workingDirectory path) (.file text) := by
  rw [write?] at h
  split at h
  · exact nomatch h
  · rename_i at_ hlocate
    obtain rfl : at_ = Path.resolve fs.workingDirectory path := eq_foldl_of_walk? hlocate
    split at h
    · exact nomatch h
    · rename_i hdirectory
      refine ⟨fun hroot => hdirectory ?_, (Option.some.inj h).symm⟩
      rw [isDirectory, hroot]
      rfl

/-- Making directories reports whether it could, and changes nothing if not. -/
theorem run_makeDirectories (path : String) (fs : FileSystem) :
    (Storage.makeDirectories path : StateM FileSystem Bool).run fs =
      pure ((fs.makeDirectories? path).isSome, (fs.makeDirectories? path).getD fs) := by
  simp only [Storage.makeDirectories, attempt, StateT.run]
  cases fs.makeDirectories? path <;> rfl

/-- Writing a text reports whether it could, and changes nothing if not. -/
theorem run_write (path text : String) (fs : FileSystem) :
    (Storage.write path text : StateM FileSystem Bool).run fs =
      pure ((fs.write? path text).isSome, (fs.write? path text).getD fs) := by
  simp only [Storage.write, attempt, StateT.run]
  cases fs.write? path text <;> rfl

end FileSystem

/-! ### One text -/

namespace Output

/-- Where a text belongs, seen from a working directory: where its path below the base leads. -/
def place (here : Location) (base : String) (o : Output) : Location :=
  Path.resolve here (Path.join base o.path)

/-- What writing a text can do: refuse it, fail to make its directory, fail to write it, or write
it. -/
inductive Step (base : String) (o : Output) (fs : FileSystem) :
    Option OutputError × FileSystem → Prop
  | refused (h : Path.isDescending o.path = false) :
      Step base o fs (some (.outside o.path base), fs)
  | noDirectory (h : Path.isDescending o.path = true) :
      Step base o fs (some (.directory (Path.parent (Path.join base o.path))), fs)
  | noFile {made : FileSystem} (h : Path.isDescending o.path = true)
      (hmade : fs.makeDirectories? (Path.parent (Path.join base o.path)) = some made) :
      Step base o fs (some (.file (Path.join base o.path)), made)
  | written {made fs' : FileSystem} (h : Path.isDescending o.path = true)
      (hmade : fs.makeDirectories? (Path.parent (Path.join base o.path)) = some made)
      (hwritten : made.write? (Path.join base o.path) o.text = some fs') :
      Step base o fs (none, fs')

/-- Writing a text below a base is one of the steps. -/
theorem step_write (base : String) (o : Output) (fs : FileSystem) :
    Step base o fs ((write base o : StateM FileSystem (Option OutputError)).run fs) := by
  cases hdown : Path.isDescending o.path with
  | false =>
      rw [write, hdown]
      exact .refused hdown
  | true =>
      rw [write, hdown, if_neg (by simp), StateT.run_bind, FileSystem.run_makeDirectories,
        pure_bind]
      cases hmade : fs.makeDirectories? (Path.parent (Path.join base o.path)) with
      | none => exact .noDirectory hdown
      | some made =>
          simp only [Option.isSome_some, Option.getD_some, Bool.not_true, Bool.false_eq_true,
            if_false, StateT.run_bind, FileSystem.run_write, pure_bind]
          cases hwritten : made.write? (Path.join base o.path) o.text with
          | none => exact .noFile hdown hmade
          | some fs' => exact .written hdown hmade hwritten

/-- A text is written only if its path goes nowhere but down. -/
theorem Step.isDescending {base : String} {o : Output} {fs fs' : FileSystem}
    (h : Step base o fs (none, fs')) : Path.isDescending o.path = true := by
  obtain - | - | - | ⟨hdown, -, -⟩ := h
  exact hdown

/-- Writing a text changes nothing but what is below the base and on the way to it. -/
theorem Step.changesBelow {base : String} {o : Output} {fs : FileSystem}
    {result : Option OutputError × FileSystem} (h : Step base o fs result) :
    fs.ChangesBelow base result.2 := by
  have hway : ∀ {made : FileSystem}, Path.isDescending o.path = true →
      fs.makeDirectories? (Path.parent (Path.join base o.path)) = some made →
      fs.ChangesBelow base made := by
    intro made hdown hmade
    obtain ⟨hdirectory, hlookup⟩ := FileSystem.addsDirectories_makeDirectories? hmade
    refine ⟨hdirectory, fun at_ => ?_⟩
    rcases hlookup at_ with heq | ⟨hmem, hadded⟩
    · exact Or.inr (Or.inl heq)
    · rcases Path.way_parent_join hdown hmem with hmem | hbelow
      · exact Or.inr (Or.inr ⟨hmem, hadded⟩)
      · exact Or.inl hbelow
  cases h with
  | refused | noDirectory => exact .refl fs base
  | noFile hdown hmade => exact hway hdown hmade
  | @written made fs' hdown hmade hwritten =>
      have hmadeBelow := hway hdown hmade
      obtain ⟨-, rfl⟩ := FileSystem.eq_set_of_write? hwritten
      refine hmadeBelow.trans ⟨rfl, fun at_ => ?_⟩
      rw [Path.resolve_join hdown]
      by_cases hat : at_ = Path.resolve made.workingDirectory base ++ Path.names o.path
      · exact Or.inl (hat ▸ List.prefix_append _ _)
      · exact Or.inr (Or.inl (FileSystem.lookup_set_of_ne made _ hat))

/-! ### Runs -/

/-- What writing texts below a base reports, and the files after it. -/
def writeAllOn (base : String) (outputs : List Output) (fs : FileSystem) :
    Option OutputError × FileSystem :=
  (writeAll base outputs : StateM FileSystem (Option OutputError)).run fs

/-- Texts are written one after the other, up to the first that cannot be. -/
theorem writeAllOn_cons_eq (base : String) (o : Output) (rest : List Output) (fs : FileSystem) :
    writeAllOn base (o :: rest) fs =
      match (write base o : StateM FileSystem (Option OutputError)).run fs with
      | (none, fs') => writeAllOn base rest fs'
      | failed => failed := by
  rw [writeAllOn, writeAll, StateT.run_bind]
  cases (write base o : StateM FileSystem (Option OutputError)).run fs with
  | mk error fs' => cases error <;> rfl

/-- Writing goes on until the first error. -/
theorem writeAllOn_cons (base : String) (o : Output) (rest : List Output) (fs : FileSystem) :
    ∃ error fs', Step base o fs (error, fs') ∧
      writeAllOn base (o :: rest) fs =
        if error.isSome then (error, fs') else writeAllOn base rest fs' := by
  have hstep := step_write base o fs
  rw [writeAllOn_cons_eq]
  cases hrun : (write base o : StateM FileSystem (Option OutputError)).run fs with
  | mk error fs' =>
      rw [hrun] at hstep
      refine ⟨error, fs', hstep, ?_⟩
      cases error with
      | none => rfl
      | some error => rfl

/-- The last of several texts that belongs at a location. -/
def lastAt? (here : Location) (base : String) (at_ : Location) (outputs : List Output) :
    Option Output :=
  outputs.reverse.find? (·.place here base = at_)

/-- A single text is the last one where it belongs. -/
theorem lastAt?_singleton (here : Location) (base : String) (at_ : Location) (o : Output) :
    lastAt? here base at_ [o] = if o.place here base = at_ then some o else none := by
  rw [lastAt?, List.reverse_singleton, List.find?_singleton]
  simp

/-- The last of two lists of texts is that of the second, or else of the first. -/
theorem lastAt?_append (here : Location) (base : String) (at_ : Location)
    (before after : List Output) :
    lastAt? here base at_ (before ++ after) =
      (lastAt? here base at_ after).or (lastAt? here base at_ before) := by
  rw [lastAt?, List.reverse_append, List.find?_append, lastAt?, lastAt?]

/-- Where one text belongs, some text is the last. -/
theorem exists_lastAt? (here : Location) (base : String) {outputs : List Output} {o : Output}
    (h : o ∈ outputs) : ∃ o' ∈ outputs, o'.place here base = o.place here base ∧
      lastAt? here base (o.place here base) outputs = some o' := by
  have hsome : (lastAt? here base (o.place here base) outputs).isSome = true := by
    rw [lastAt?, List.find?_isSome]
    exact ⟨o, List.mem_reverse.mpr h, decide_eq_true rfl⟩
  obtain ⟨o', hlast⟩ := Option.isSome_iff_exists.mp hsome
  have hplace := List.find?_some hlast
  exact ⟨o', List.mem_reverse.mp (List.mem_of_find?_eq_some hlast), of_decide_eq_true hplace, hlast⟩

/-- `fs'` is `fs` with the last text that belongs at each location, and with directories where
nothing stood. -/
structure Written (base : String) (outputs : List Output) (fs fs' : FileSystem) : Prop where
  workingDirectory : fs'.workingDirectory = fs.workingDirectory
  last : ∀ at_ o, lastAt? fs.workingDirectory base at_ outputs = some o →
    fs'.lookup at_ = some (.file o.text)
  kept : ∀ at_, lastAt? fs.workingDirectory base at_ outputs = none →
    fs'.lookup at_ = fs.lookup at_ ∨ fs.lookup at_ = none ∧ fs'.lookup at_ = some .directory

variable {base : String} {fs fs' fs'' : FileSystem}

/-- Without texts nothing is written. -/
theorem Written.nil (base : String) (fs : FileSystem) : Written base [] fs fs :=
  ⟨rfl, nofun, fun _ _ => Or.inl rfl⟩

/-- What is written later stands over what was written before. -/
theorem Written.append {before after : List Output} (h : Written base before fs fs')
    (h' : Written base after fs' fs'') : Written base (before ++ after) fs fs'' := by
  refine ⟨h'.workingDirectory.trans h.workingDirectory, fun at_ o hlast => ?_, fun at_ hlast => ?_⟩
  all_goals rw [lastAt?_append] at hlast
  · rcases Option.or_eq_some_iff.mp hlast with hlast | ⟨hnone, hlast⟩
    · exact h'.last at_ o (h.workingDirectory ▸ hlast)
    · have hfile := h.last at_ o hlast
      rcases h'.kept at_ (h.workingDirectory ▸ hnone) with heq | ⟨hempty, -⟩
      · exact heq.trans hfile
      · rw [hfile] at hempty
        exact nomatch hempty
  · obtain ⟨hafter, hbefore⟩ := Option.or_eq_none_iff.mp hlast
    rcases h.kept at_ hbefore with heq | ⟨hnone, hmade⟩ <;>
      rcases h'.kept at_ (h.workingDirectory ▸ hafter) with heq' | ⟨hnone', hmade'⟩
    · exact Or.inl (heq'.trans heq)
    · exact Or.inr ⟨heq ▸ hnone', hmade'⟩
    · exact Or.inr ⟨hnone, heq'.trans hmade⟩
    · exact Or.inr ⟨hnone, hmade'⟩

/-- A text that is written stands where it belongs. -/
theorem Step.written_singleton {o : Output} (h : Step base o fs (none, fs')) :
    Written base [o] fs fs' := by
  obtain - | - | - | ⟨-, hmade, hwritten⟩ := h
  have hadds := FileSystem.addsDirectories_makeDirectories? hmade
  obtain ⟨hroot, rfl⟩ := FileSystem.eq_set_of_write? hwritten
  rw [hadds.workingDirectory] at hroot ⊢
  refine ⟨hadds.workingDirectory, fun at_ o' hlast => ?_, fun at_ hlast => ?_⟩
  · obtain ⟨hplace, rfl⟩ : o.place fs.workingDirectory base = at_ ∧ o = o' := by
      simpa [lastAt?_singleton] using hlast
    rw [← hplace]
    exact FileSystem.lookup_set_self _ _ hroot
  · have hplace : o.place fs.workingDirectory base ≠ at_ := by
      simpa [lastAt?_singleton] using hlast
    rw [place] at hplace
    rw [FileSystem.lookup_set_of_ne _ _ (Ne.symm hplace)]
    exact (hadds.lookup at_).imp_right And.right

/-- A run without an error writes all its texts. -/
theorem written_of_writeAllOn {outputs : List Output}
    (h : writeAllOn base outputs fs = (none, fs')) : Written base outputs fs fs' := by
  induction outputs generalizing fs with
  | nil =>
      obtain rfl := (Prod.mk.inj h).2
      exact .nil base fs
  | cons o rest ih =>
      obtain ⟨error, made, hstep, hrun⟩ := writeAllOn_cons base o rest fs
      rw [hrun] at h
      cases error with
      | some error => exact nomatch h
      | none => exact hstep.written_singleton.append (ih h)

/-- What stands at a location is the last text that belongs there, or what stood there before. -/
theorem Written.content?_eq {outputs : List Output} (h : Written base outputs fs fs')
    (at_ : Location) : fs'.content? at_ =
      ((lastAt? fs.workingDirectory base at_ outputs).map text).or (fs.content? at_) := by
  rw [FileSystem.content?, FileSystem.content?]
  cases hlast : lastAt? fs.workingDirectory base at_ outputs with
  | some o =>
      rw [h.last at_ o hlast]
      rfl
  | none =>
      rcases h.kept at_ hlast with heq | ⟨hnone, hmade⟩
      · rw [heq]
        rfl
      · rw [hnone, hmade]
        rfl

/-- After all texts have been written, a location holds the last one that belongs there, or what it
held before if there is none. -/
theorem writeAll_written {outputs : List Output} (h : writeAllOn base outputs fs = (none, fs')) :
    (∀ o ∈ outputs, Path.isDescending o.path = true) ∧
      ∀ at_, fs'.content? at_ =
        ((lastAt? fs.workingDirectory base at_ outputs).map text).or (fs.content? at_) := by
  refine ⟨?_, (written_of_writeAllOn h).content?_eq⟩
  induction outputs generalizing fs with
  | nil => exact fun o ho => absurd ho List.not_mem_nil
  | cons o rest ih =>
      obtain ⟨error, made, hstep, hrun⟩ := writeAllOn_cons base o rest fs
      rw [hrun] at h
      cases error with
      | some error => exact nomatch h
      | none => exact List.forall_mem_cons.mpr ⟨hstep.isDescending, ih h⟩

/-- Texts all stand where they belong if and only if those that belong at one place are equal. -/
theorem writeAll_own_iff {base : String} {outputs : List Output} {fs fs' : FileSystem}
    (h : writeAllOn base outputs fs = (none, fs')) :
    (∀ o ∈ outputs, fs'.content? (o.place fs.workingDirectory base) = some o.text) ↔
      ∀ o ∈ outputs, ∀ o' ∈ outputs,
        o.place fs.workingDirectory base = o'.place fs.workingDirectory base →
          o.text = o'.text := by
  have hcontent := (writeAll_written h).2
  constructor
  · intro hown o ho o' ho' hplace
    have htext := hown o ho
    rw [hplace, hown o' ho'] at htext
    exact (Option.some.inj htext).symm
  · intro hsame o ho
    obtain ⟨o', ho', hplace, hlast⟩ := exists_lastAt? fs.workingDirectory base ho
    rw [hcontent, hlast, Option.map_some, Option.some_or, hsame o ho o' ho' hplace.symm]

/-- Writing texts changes nothing outside their base. -/
theorem changesBelow_writeAll (base : String) (outputs : List Output) (fs : FileSystem) :
    fs.ChangesBelow base (writeAllOn base outputs fs).2 := by
  induction outputs generalizing fs with
  | nil => exact .refl fs base
  | cons o rest ih =>
      obtain ⟨error, made, hstep, hrun⟩ := writeAllOn_cons base o rest fs
      rw [hrun]
      split
      · exact hstep.changesBelow
      · exact hstep.changesBelow.trans (ih made)

/-- Paths that lead down are never refused. -/
theorem writeAll_not_refused (base : String) {outputs : List Output} (fs : FileSystem)
    (hdown : ∀ o ∈ outputs, Path.isDescending o.path = true) (path directory : String) :
    (writeAllOn base outputs fs).1 ≠ some (.outside path directory) := by
  induction outputs generalizing fs with
  | nil => exact nofun
  | cons o rest ih =>
      rw [List.forall_mem_cons] at hdown
      obtain ⟨error, made, hstep, hrun⟩ := writeAllOn_cons base o rest fs
      rw [hrun]
      split
      · cases hstep with
        | refused h => exact absurd (h.symm.trans hdown.1) Bool.false_ne_true
        | noDirectory => exact nofun
        | noFile => exact nofun
        | written => exact nofun
      · exact ih made hdown.2

end Output

end OpenApiZod
