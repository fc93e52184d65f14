import OpenApiZod.Proofs.FromClauses

/-!
# Where comments end

A comment ends at the first end mark after its start, wherever that came from (`Comment.skip?`). The
texts in a comment come from the document, and each end mark in them is written apart. None can come
about where a text meets what stands around it either, since that is a blank or a line end on both
sides.

So a comment has one end mark, its last two characters, and what a module holds after the comment is
read as code from its first character on (`Comment.ends_where_code_begins`).
-/

namespace OpenApiZod

/-! ### Blanks -/

namespace Text

/-- No separator is left in the parts. -/
theorem eq_false_of_mem_splitAt {p : Char → Bool} {cs part : List Char} {c : Char}
    (hpart : part ∈ splitAt p cs) (hc : c ∈ part) : p c = false := by
  induction cs generalizing part with
  | nil =>
      simp only [splitAt, List.mem_singleton] at hpart
      simp [hpart] at hc
  | cons d cs ih =>
      rw [splitAt] at hpart
      split at hpart
      · rcases List.mem_cons.mp hpart with rfl | hpart
        · simp at hc
        · exact ih hpart hc
      · rename_i hd
        have hd : p d = false := by simpa using hd
        split at hpart
        · obtain rfl := List.mem_singleton.mp hpart
          obtain rfl := List.mem_singleton.mp hc
          exact hd
        · rename_i first parts hsplit
          rcases List.mem_cons.mp hpart with rfl | hpart
          · rcases List.mem_cons.mp hc with rfl | hc
            · exact hd
            · exact ih (hsplit ▸ List.mem_cons_self) hc
          · exact ih (hsplit ▸ List.mem_cons_of_mem _ hpart) hc

/-- All white space of a text is blanks once its stretches are collapsed. -/
theorem eq_blank_of_mem_collapseBlanks {s : String} {c : Char}
    (hc : c ∈ (collapseBlanks s).toList) (hblank : isBlank c = true) : c = ' ' := by
  rw [collapseBlanks, String.toList_ofList] at hc
  have hparts : ∀ part ∈ blankSeparated s, ∀ d ∈ part, isBlank d = false := by
    intro part hpart d hd
    exact eq_false_of_mem_splitAt (List.mem_filter.mp hpart).1 hd
  generalize blankSeparated s = parts at hc hparts
  induction parts using List.twoStepInduction with
  | nil => simp at hc
  | singleton part =>
      simp only [List.intercalate_singleton] at hc
      simp [hparts part (by simp) c hc] at hblank
  | cons_cons part next rest _ ih =>
      rw [List.intercalate_cons_cons, List.mem_append, List.mem_append] at hc
      rcases hc with (hc | hc) | hc
      · simp [hparts part (by simp) c hc] at hblank
      · simpa using hc
      · exact ih next hc fun p hp => hparts p (List.mem_cons_of_mem _ hp)

end Text

namespace Comment

/-! ### Reading past a comment -/

/-- What follows the first end mark. -/
def afterEnd? : List Char → Option (List Char)
  | [] => none
  | '*' :: '/' :: rest => some rest
  | _ :: rest => afterEnd? rest

/-- What follows the comment at the front of a text. -/
def skip? : List Char → Option (List Char)
  | '/' :: '*' :: rest => afterEnd? rest
  | _ => none

/-- A piece without an end mark is passed over, unless one comes about where it ends. -/
theorem afterEnd?_append {cs rest : List Char} (hcs : afterEnd? cs = none)
    (hjoint : cs.getLast? = some '*' → rest.head? ≠ some '/') :
    afterEnd? (cs ++ rest) = afterEnd? rest := by
  fun_induction afterEnd? cs with
  | case1 => rfl
  | case2 => simp at hcs
  | case3 c cs hmark ih =>
      rw [List.cons_append, afterEnd?]
      · refine ih hcs fun hlast => hjoint ?_
        rw [List.getLast?_cons, hlast]
        rfl
      · rintro tail rfl heq
        cases cs with
        | nil => exact hjoint rfl (by simp [show rest = '/' :: tail from heq])
        | cons d cs => exact hmark cs rfl (by simp_all)

/-- The first end mark leaves most behind it. -/
theorem suffix_of_afterEnd? {cs rest front back : List Char} (hrest : afterEnd? cs = some rest)
    (hcs : cs = front ++ '*' :: '/' :: back) : back <:+ rest := by
  fun_induction afterEnd? cs generalizing front with
  | case1 => simp at hrest
  | case2 tail =>
      obtain rfl := Option.some.inj hrest
      rcases front with _ | ⟨a, _ | ⟨b, front⟩⟩
      · simp_all
      · simp_all
      · simp only [List.cons_append, List.cons.injEq] at hcs
        rw [hcs.2.2]
        exact ⟨front ++ ['*', '/'], by simp⟩
  | case3 c cs hmark ih =>
      cases front with
      | nil =>
          simp only [List.nil_append, List.cons.injEq] at hcs
          exact absurd hcs.2 (hmark _ hcs.1)
      | cons a front =>
          simp only [List.cons_append, List.cons.injEq] at hcs
          exact ih hrest hcs.2

/-! ### Escaped texts -/

/-- Escaping adds nothing but backslashes. -/
theorem mem_escape {cs : List Char} {c : Char} (h : c ∈ escape cs) : c ∈ cs ∨ c = '\\' := by
  fun_induction escape cs with
  | case1 => simp at h
  | case2 rest ih => simp only [List.mem_cons] at h ⊢; tauto
  | case3 d rest _ ih => simp only [List.mem_cons] at h ⊢; tauto

/-- What an escaped text starts with is what the text starts with. -/
theorem head?_escape (cs : List Char) : (escape cs).head? = cs.head? := by
  fun_induction escape cs with
  | case1 | case2 | case3 => rfl

/-- An escaped text has no end mark. -/
theorem afterEnd?_escape (cs : List Char) : afterEnd? (escape cs) = none := by
  fun_induction escape cs with
  | case1 => rfl
  | case2 rest ih => simpa [afterEnd?] using ih
  | case3 c rest hmark ih =>
      rw [afterEnd?]
      · exact ih
      · rintro tail rfl heq
        -- An end mark would start with the text's own first two characters.
        have hhead : rest.head? = some '/' := by rw [← head?_escape, heq]; rfl
        obtain ⟨rest, rfl⟩ : ∃ rest', rest = '/' :: rest' := by
          cases rest with
          | nil => simp at hhead
          | cons d rest => exact ⟨rest, by simpa using hhead⟩
        exact hmark rest rfl rfl

/-! ### Whole comments -/

/-- A piece of a text in which no comment ends, nor with what comes after it. -/
structure StaysOpen (cs : List Char) : Prop where
  afterEnd? : afterEnd? cs = none
  getLast? : cs.getLast? ≠ some '*'

/-- A comment that stays open ends where what follows ends it. -/
theorem StaysOpen.afterEnd?_append {cs : List Char} (h : StaysOpen cs) (rest : List Char) :
    Comment.afterEnd? (cs ++ rest) = Comment.afterEnd? rest :=
  Comment.afterEnd?_append h.afterEnd? fun hlast => absurd hlast h.getLast?

/-- What stays open twice stays open. -/
theorem StaysOpen.append {cs ds : List Char} (hcs : StaysOpen cs) (hds : StaysOpen ds) :
    StaysOpen (cs ++ ds) where
  afterEnd? := by rw [hcs.afterEnd?_append, hds.afterEnd?]
  getLast? := by
    rw [List.getLast?_append]
    cases hlast : ds.getLast? with
    | none => exact hcs.getLast?
    | some d =>
        rw [Option.some_or, ← hlast]
        exact hds.getLast?

/-- An escaped text before a character that ends no comment. -/
theorem staysOpen_escape_append (cs : List Char) {c : Char} (hmark : c ≠ '*') (hslash : c ≠ '/') :
    StaysOpen (escape cs ++ [c]) where
  afterEnd? := by
    rw [Comment.afterEnd?_append (afterEnd?_escape cs) (by simp [hslash])]
    simp [Comment.afterEnd?]
  getLast? := by simp [hmark]

/-- A line of a block does not end the comment. -/
theorem staysOpen_blockLine (line : String) : StaysOpen (blockLine line).toList := by
  have hbullet : StaysOpen [' ', '*', ' '] := ⟨rfl, by decide⟩
  unfold blockLine
  split
  · exact ⟨rfl, by decide⟩
  · have htext := staysOpen_escape_append (Text.dropBlankEnd line.toList)
      (show '\n' ≠ '*' by decide) (by decide)
    simpa using hbullet.append htext

/-- Nor do several lines. -/
theorem staysOpen_blockLines (lines : List String) :
    StaysOpen (String.join (lines.map blockLine)).toList := by
  induction lines with
  | nil => exact ⟨rfl, by decide⟩
  | cons line lines ih =>
      rw [List.map_cons, String.join_cons, String.toList_append]
      exact (staysOpen_blockLine line).append ih

/-- What a comment holds between its marks. -/
def interior : Comment → List Char
  | .block lines => '\n' :: (String.join (lines.map blockLine)).toList ++ [' ']
  | .line text => ' ' :: escape (Text.collapseBlanks text).toList ++ [' ']

/-- A comment is its interior between the two marks. -/
theorem toList_render (c : Comment) :
    c.render.toList = '/' :: '*' :: ('*' :: c.interior ++ ['*', '/']) := by
  cases c <;> simp [render, interior]

/-- The interior does not end the comment. -/
theorem staysOpen_interior (c : Comment) : StaysOpen ('*' :: c.interior) := by
  have hblank : StaysOpen [' '] := ⟨rfl, by decide⟩
  cases c with
  | block lines =>
      have hstart : StaysOpen ['*', '\n'] := ⟨rfl, by decide⟩
      simpa [interior] using (hstart.append (staysOpen_blockLines lines)).append hblank
  | line text =>
      have hstart : StaysOpen ['*', ' '] := ⟨rfl, by decide⟩
      have htext := staysOpen_escape_append (Text.collapseBlanks text).toList
        (show ' ' ≠ '*' by decide) (by decide)
      simpa [interior] using hstart.append htext

/-- Whatever its texts are, a comment is read up to its end. -/
theorem skip?_render (c : Comment) (rest : List Char) :
    skip? (c.render.toList ++ rest) = some rest := by
  rw [toList_render, List.cons_append, List.cons_append, List.append_assoc, skip?,
    (staysOpen_interior c).afterEnd?_append]
  rfl

/-- A text that starts like a documentation comment and ends with the only end mark in it. -/
structure IsClosed (text : String) : Prop where
  marks : ∃ body, text = "/**" ++ body ++ "*/"
  once : ∀ front back, text = front ++ "*/" ++ back → back = ""

/-- So every comment ends where its text does, and nowhere before. -/
theorem isClosed_render (c : Comment) : IsClosed c.render := by
  refine ⟨⟨.ofList c.interior, ?_⟩, fun front back h => ?_⟩
  · rw [← String.toList_inj, toList_render]
    simp
  · have hend : afterEnd? c.render.toList = some [] := by
      have hskip := skip?_render c []
      rw [List.append_nil, toList_render, skip?] at hskip
      rw [toList_render]
      exact hskip
    have hsplit : c.render.toList = front.toList ++ '*' :: '/' :: back.toList := by
      rw [h]
      simp
    have hsuffix := suffix_of_afterEnd? hend hsplit
    simpa using hsuffix

/-- The only white space in a comment of one line is the blank. -/
theorem eq_blank_of_mem_render_line {text : String} {c : Char}
    (hc : c ∈ (render (.line text)).toList) (hblank : Text.isBlank c = true) : c = ' ' := by
  have hmarks : ∀ d ∈ ['/', '*', '\\'], Text.isBlank d = false := by simp [Text.isBlank]
  simp only [toList_render, interior, List.mem_cons, List.mem_append, List.not_mem_nil] at hc
  by_contra hne
  have hmark : c ∉ ['/', '*', '\\'] := fun hmem => by simp [hmarks c hmem] at hblank
  have hescaped : c ∈ escape (Text.collapseBlanks text).toList := by simp_all
  rcases mem_escape hescaped with htext | hslash
  · exact hne (Text.eq_blank_of_mem_collapseBlanks htext hblank)
  · exact hmark (by simp [hslash])

/-- What ends a line is white space. -/
theorem isBlank_of_endsLine {c : Char} (h : StringLiteral.endsLine c = true) :
    Text.isBlank c = true := by
  simp only [StringLiteral.endsLine, Bool.or_eq_true, beq_iff_eq] at h
  rcases h with ((rfl | rfl) | h) | h
  · rfl
  · rfl
  · simp [Text.isBlank, h]
  · simp [Text.isBlank, h]

/-- So a comment of one line has no line breaks. -/
theorem endsLine_of_mem_render_line {text : String} {c : Char}
    (hc : c ∈ (render (.line text)).toList) : StringLiteral.endsLine c = false := by
  by_contra hends
  rw [Bool.not_eq_false] at hends
  obtain rfl := eq_blank_of_mem_render_line hc (isBlank_of_endsLine hends)
  exact absurd hends (by decide)

end Comment

/-! ### Comments of modules -/

/-- The text is `front`, the comment and `code`, and who reads the comment where it stands comes to
its end where `code` begins. -/
def Comment.EndsBefore (c : Comment) (front code text : String) : Prop :=
  text = front ++ c.render ++ code ∧ skip? (c.render ++ code).toList = some code.toList

/-- A comment in front of code ends there if the text is made up so. -/
theorem Comment.endsBefore_of_eq {c : Comment} {front code text : String}
    (h : text = front ++ c.render ++ code) : c.EndsBefore front code text := by
  refine ⟨h, ?_⟩
  rw [String.toList_append, skip?_render]

namespace Text

/-- What comes before a piece is written with all its separators. -/
theorem separated_append_cons (separator : String) (before : List String) (s : String)
    (after : List String) :
    separated separator (before ++ s :: after) =
      String.join (before.map (· ++ separator)) ++ separated separator (s :: after) := by
  induction before with
  | nil => simp
  | cons first before ih =>
      have hstep : separated separator (first :: (before ++ s :: after)) =
          first ++ separator ++ separated separator (before ++ s :: after) := by
        cases before <;> rfl
      rw [List.cons_append, hstep, ih, List.map_cons, String.join_cons]
      simp only [String.append_assoc]

/-- Separated pieces begin with the first one. -/
theorem exists_separated_cons (separator s : String) (after : List String) :
    ∃ rest, separated separator (s :: after) = s ++ rest := by
  cases after with
  | nil => exact ⟨"", by simp [separated]⟩
  | cons next after =>
      refine ⟨separator ++ separated separator (next :: after), ?_⟩
      rw [separated, String.append_assoc]
      simp

end Text

namespace Module

variable {m : Module} {c : Comment}

/-- What stands between the header and the declarations. -/
def headerGap : Layout → String
  | .single => "\n"
  | .collection => "\n\n"

/-- The header ends before the declarations begin. -/
theorem header_endsBefore (hheader : m.header = some c) :
    c.EndsBefore (clausesText m.clauses ++ "\n")
      (headerGap m.layout ++ Text.separated "\n" (m.declarations.map m.declaration)) m.render := by
  apply Comment.endsBefore_of_eq
  rw [render_eq, body, headerText, hheader]
  cases hlayout : m.layout <;> simp only [headerGap, String.append_assoc]

/-- The comment of a declaration ends before its constant. -/
theorem exists_declaration_endsBefore {d : Declaration} (hd : d ∈ m.declarations)
    (hcomment : d.comment = some c) :
    ∃ front rest, c.EndsBefore front ("\n" ++ m.constant d ++ rest) m.render := by
  obtain ⟨before, after, hsplit⟩ := List.append_of_mem hd
  obtain ⟨rest, hrest⟩ :=
    Text.exists_separated_cons "\n" (m.declaration d) (after.map m.declaration)
  obtain ⟨tail, htail⟩ : ∃ tail, m.declaration d = c.render ++ ("\n" ++ m.constant d ++ tail) := by
    refine ⟨(match m.layout with | .single => "\n" | .collection => "") ++ type d, ?_⟩
    cases hlayout : m.layout <;>
      simp [declaration, commentText, hcomment, hlayout, String.append_assoc]
  refine ⟨clausesText m.clauses ++ "\n" ++ m.headerText ++
      String.join ((before.map m.declaration).map (· ++ "\n")), tail ++ rest,
    Comment.endsBefore_of_eq ?_⟩
  rw [render_eq, body, hsplit, List.map_append, List.map_cons, Text.separated_append_cons, hrest,
    htail]
  simp only [String.append_assoc]

/-- A constant begins with its name, whatever its validator is. -/
theorem exists_constant_append (m : Module) (d : Declaration) (rest : String) :
    ∃ rest', "\n" ++ m.constant d ++ rest = "\nexport const " ++ d.name ++ " = " ++ rest' := by
  have hline : "\nexport const " = "\n" ++ "export const " := by decide
  have hconstant : m.constant d =
      "export const " ++ d.name ++ " = " ++ d.validator.render m.binding ++ ";\n" := rfl
  refine ⟨d.validator.render m.binding ++ ";\n" ++ rest, ?_⟩
  simp only [hconstant, hline, String.append_assoc]

end Module

/-- **Comments.** Whatever texts it is made of, a comment starts with `/**`, ends with its only end
mark, and a comment of one line has no line end in it and no white space but blanks. So the header
of each component and of each operation ends where the declarations begin, and the comment of each
response before its constant. -/
theorem Comment.ends_where_code_begins :
    (∀ lines, IsClosed (render (.block lines))) ∧
      (∀ text, IsClosed (render (.line text)) ∧
        ∀ c ∈ (render (.line text)).toList,
          StringLiteral.endsLine c = false ∧ (Text.isBlank c = true → c = ' ')) ∧
      (∀ (g : ComponentGenerator) (component : Component) (v : Validator) (imports : List String),
        g.options.jsdoc = true →
        let f := g.file component v imports
        ∃ rest, EndsBefore (.block component.headerLines)
          (clausesText f.artifact.clauses ++ "\n")
          ("\nexport const " ++ Identifier.ofName component.name ++ " = " ++ rest) f.content) ∧
      ∀ (components : ComponentTable) (options : OutputOptions) (o : OperationRecord)
        (group : String), options.jsdoc = true →
        let m := OperationModule.ofOperation components options o
        let f := OperationModule.file components options o group
        EndsBefore (.block o.headerLines) (clausesText f.artifact.clauses ++ "\n")
            ("\n\n" ++ Text.separated "\n" (m.declarations.map m.declaration)) f.content ∧
          ∀ status r, (status, r) ∈ o.responses.entries → ∃ front rest,
            EndsBefore (responseComment status r.description) front
              ("\nexport const " ++ responseName status ++ " = " ++ rest) f.content := by
  refine ⟨fun lines => isClosed_render _, fun text => ⟨isClosed_render _, fun c hc =>
      ⟨endsLine_of_mem_render_line hc, eq_blank_of_mem_render_line hc⟩⟩,
    fun g component v imports hjsdoc => ?_, fun components options o group hjsdoc => ⟨?_, ?_⟩⟩
  · obtain ⟨m, hm, hlayout, hdeclarations, hheader⟩ : ∃ m : Module,
        (g.file component v imports).artifact = .module m ∧ m.layout = .single ∧
          m.declarations = [⟨none, Identifier.ofName component.name, v⟩] ∧
          m.header = some (.block component.headerLines) :=
      ⟨_, rfl, rfl, rfl, if_pos hjsdoc⟩
    obtain ⟨rest, hrest⟩ := m.exists_constant_append ⟨none, Identifier.ofName component.name, v⟩
      ("\n" ++ Module.type ⟨none, Identifier.ofName component.name, v⟩)
    have hcode : Module.headerGap m.layout ++
        Text.separated "\n" (m.declarations.map m.declaration) =
          "\nexport const " ++ Identifier.ofName component.name ++ " = " ++ rest := by
      rw [← hrest, hlayout, hdeclarations, List.map_singleton, Text.separated, Module.declaration,
        hlayout]
      simp only [Module.headerGap, Module.commentText, String.empty_append, String.append_assoc]
    refine ⟨rest, ?_⟩
    rw [GeneratedFile.content, hm, ← hcode]
    exact Module.header_endsBefore hheader
  · have hheader : (OperationModule.ofOperation components options o).header =
        some (.block o.headerLines) := if_pos hjsdoc
    have hends := Module.header_endsBefore hheader
    rw [show (OperationModule.ofOperation components options o).layout = .collection from rfl]
      at hends
    exact hends
  · intro status r hr
    let d : Declaration := ⟨some (responseComment status r.description), responseName status,
      OperationModule.responseValidator ⟨components, none⟩ r.body⟩
    have hd : d ∈ (OperationModule.ofOperation components options o).declarations := by
      refine List.mem_append_right _ (List.mem_map.mpr ⟨(status, r), hr, ?_⟩)
      simp only [hjsdoc, if_true, d]
    obtain ⟨front, rest, hends⟩ := Module.exists_declaration_endsBefore hd rfl
    obtain ⟨rest', hrest⟩ := Module.exists_constant_append _ d rest
    exact ⟨front, rest', hrest ▸ hends⟩

/-- An end mark in a text, one that two lines of a text make together, and one that meets the mark
at the end. -/
example : Comment.render (.block ["a */*/ b", "c *\n/ d", "**/"]) =
      "/**\n * a *\\/*\\/ b\n * c *\n/ d\n * **\\/\n */" ∧
    Comment.render (.line "a *\u2028 / */ *") = "/** a * / *\\/ * */" := by
  decide +kernel

end OpenApiZod
