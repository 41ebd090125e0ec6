import Interposer.Proofs.Wrapper.Rendering

/-! The lines of an emitted function. A block is indented as a text, again at every level, and what
is indented has been joined of texts with several lines each. All the same, a function has the lines
that a reader of its statements expects, each with a tab for every level that it is nested in
(`Function.emission_keeps_lines`). -/

namespace Interposer.Wrapper

open Source

/-! ## Lines -/

/-- The lines of a text that are not empty. -/
def filledLines (text : String) : List String :=
  ((text.toList.splitOn '\n').filter (· ≠ [])).map String.ofList

theorem filledLines_append_newline (s t : String) :
    filledLines (s ++ "\n" ++ t) = filledLines s ++ filledLines t := by
  have hsplit := List.splitOn_append_cons_self (a := '\n') s.toList t.toList
  simp [filledLines, hsplit]

theorem filledLines_newline (s : String) : filledLines (s ++ "\n") = filledLines s := by
  simpa [filledLines] using filledLines_append_newline s ""

/-- Indentation puts a tab before every line, and leaves the empty ones empty. -/
theorem splitOn_indented (cs : List Char) :
    (indented true cs).splitOn '\n' = (cs.splitOn '\n').map tabbed ∧
      ∃ line lines, cs.splitOn '\n' = line :: lines ∧
        (indented false cs).splitOn '\n' = line :: lines.map tabbed := by
  induction cs with
  | nil => exact ⟨rfl, [], [], rfl, rfl⟩
  | cons c cs ih =>
    obtain ⟨htrue, line, lines, hsplit, hfalse⟩ := ih
    by_cases hc : c = '\n'
    · subst hc
      simp [indented, tabbed, List.splitOn_cons_eq_if_modifyHead, htrue]
    · have hcons : (c :: cs).splitOn '\n' = (c :: line) :: lines := by
        simp [List.splitOn_cons_eq_if_modifyHead, hc, hsplit]
      rw [hcons]
      refine ⟨?_, c :: line, lines, rfl, ?_⟩
      · simp [indented, hc, List.splitOn_cons_eq_if_modifyHead, hfalse, tabbed]
      · simp [indented, hc, List.splitOn_cons_eq_if_modifyHead, hfalse]

theorem filledLines_indent {s : String} (hreturn : '\r' ∉ s.toList) :
    filledLines (Text.indent 1 s) = (filledLines s).map ("\t" ++ ·) := by
  by_cases hempty : s = ""
  · subst hempty
    rfl
  obtain ⟨rest, hrest, hindent⟩ := indent_append hreturn hempty
  have hlines : filledLines (Text.indent 1 s) =
      filledLines (String.ofList (indented true s.toList)) := by
    rw [← hindent]
    rcases hrest with rfl | rfl
    · simp
    · simpa using (filledLines_newline (Text.indent 1 s)).symm
  have htabbed : ∀ lines : List (List Char),
      ((lines.map tabbed).filter (· ≠ [])).map String.ofList =
        ((lines.filter (· ≠ [])).map String.ofList).map ("\t" ++ ·) := by
    intro lines
    induction lines with
    | nil => rfl
    | cons line lines ih =>
      by_cases hline : line = []
      · simpa [tabbed, hline] using ih
      · have htab : String.ofList ('\t' :: line) = "\t" ++ String.ofList line := String.ofList_cons
        simpa [tabbed, hline, htab] using ih
  rw [hlines, filledLines, String.toList_ofList, (splitOn_indented _).1, htabbed]
  rfl

theorem mem_indented {c : Char} {cs : List Char} {atStart : Bool} (h : c ∈ indented atStart cs) :
    c = '\t' ∨ c ∈ cs := by
  induction cs generalizing atStart with
  | nil => cases h
  | cons d cs ih =>
    rw [indented] at h
    split_ifs at h
    · rcases List.mem_cons.mp h with rfl | h
      · exact .inr List.mem_cons_self
      · exact (ih h).imp_right (List.mem_cons_of_mem d)
    · rcases List.mem_cons.mp h with rfl | h
      · exact .inl rfl
      rcases List.mem_cons.mp h with rfl | h
      · exact .inr List.mem_cons_self
      · exact (ih h).imp_right (List.mem_cons_of_mem d)
    · rcases List.mem_cons.mp h with rfl | h
      · exact .inr List.mem_cons_self
      · exact (ih h).imp_right (List.mem_cons_of_mem d)

theorem return_not_mem_indent {s : String} (hreturn : '\r' ∉ s.toList) :
    '\r' ∉ (Text.indent 1 s).toList := by
  by_cases hempty : s = ""
  · subst hempty
    exact List.not_mem_nil
  obtain ⟨rest, -, hindent⟩ := indent_append hreturn hempty
  intro hmem
  have hmem' := List.mem_append_left rest hmem
  rw [hindent] at hmem'
  exact (mem_indented hmem').elim (by decide) hreturn

/-! ## Nesting -/

/-- A line, and how many blocks it is nested in. -/
structure NestedLine where
  depth : Nat
  line : String
  deriving DecidableEq, Repr

namespace NestedLine

def deeper (l : NestedLine) : NestedLine := ⟨l.depth + 1, l.line⟩

/-- The line as it is written, a tab in front for each block. -/
def text (l : NestedLine) : String := String.ofList (List.replicate l.depth '\t') ++ l.line

theorem text_deeper (l : NestedLine) : l.deeper.text = "\t" ++ l.text := by
  simp [text, deeper, List.replicate_succ, String.ofList_cons, String.append_assoc]

theorem text_zero (line : String) : text ⟨0, line⟩ = line := by simp [text]

end NestedLine

/-- The lines of a text, all nested equally. -/
def linesAt (depth : Nat) (text : String) : List NestedLine := (filledLines text).map (⟨depth, ·⟩)

mutual

/-- The lines of a statement in the order of reading, with what is nested in it one level deeper. -/
def Statement.outline (depth : Nat) : Statement → List NestedLine
  | .raw code => linesAt depth code
  | .blank => []
  | .ifThen condition body =>
    linesAt depth ("if " ++ condition ++ " \x7b") ++ outlineAll (depth + 1) body ++
      linesAt depth "\x7d"
  | .ifElse condition body alternative =>
    linesAt depth ("if " ++ condition ++ " \x7b") ++ outlineAll (depth + 1) body ++
      linesAt depth "\x7d else \x7b" ++ outlineAll (depth + 1) alternative ++ linesAt depth "\x7d"
  | .returns values =>
    linesAt depth (if values.isEmpty then "return" else "return " ++ ", ".intercalate values)

def outlineAll (depth : Nat) : List Statement → List NestedLine
  | [] => []
  | s :: rest => s.outline depth ++ outlineAll depth rest

end

mutual

/-- The texts that a statement is made up of. -/
def Statement.texts : Statement → List String
  | .raw code => [code]
  | .blank => []
  | .ifThen condition body => condition :: textsOfAll body
  | .ifElse condition body alternative =>
    condition :: (textsOfAll body ++ textsOfAll alternative)
  | .returns values => values

def textsOfAll : List Statement → List String
  | [] => []
  | s :: rest => s.texts ++ textsOfAll rest

end

theorem linesAt_succ (depth : Nat) (text : String) :
    linesAt (depth + 1) text = (linesAt depth text).map NestedLine.deeper := by
  rw [linesAt, linesAt, List.map_map]
  rfl

mutual

theorem Statement.outline_succ (depth : Nat) : ∀ s : Statement,
    s.outline (depth + 1) = (s.outline depth).map NestedLine.deeper
  | .raw code => linesAt_succ depth code
  | .blank => rfl
  | .ifThen condition body => by
    simp only [Statement.outline, linesAt_succ, outlineAll_succ (depth + 1) body, List.map_append]
  | .ifElse condition body alternative => by
    simp only [Statement.outline, linesAt_succ, outlineAll_succ (depth + 1) body,
      outlineAll_succ (depth + 1) alternative, List.map_append]
  | .returns values => linesAt_succ depth _

theorem outlineAll_succ (depth : Nat) : ∀ body : List Statement,
    outlineAll (depth + 1) body = (outlineAll depth body).map NestedLine.deeper
  | [] => rfl
  | s :: rest => by
    simp only [outlineAll, s.outline_succ depth, outlineAll_succ depth rest, List.map_append]

end

/-! ## Emission -/

/-- A text with the given lines, which end with line feeds alone. -/
structure HasLines (text : String) (lines : List NestedLine) : Prop where
  no_return : '\r' ∉ text.toList
  filled : filledLines text = lines.map NestedLine.text

namespace HasLines

variable {s t : String} {lines lines' : List NestedLine}

theorem of_text (h : '\r' ∉ s.toList) : HasLines s (linesAt 0 s) := by
  refine ⟨h, ?_⟩
  rw [linesAt, List.map_map]
  exact (List.map_id'' NestedLine.text_zero (filledLines s)).symm

theorem newline (h : HasLines s lines) (h' : HasLines t lines') :
    HasLines (s ++ "\n" ++ t) (lines ++ lines') := by
  refine ⟨?_, ?_⟩
  · simpa using ⟨h.no_return, h'.no_return⟩
  · rw [filledLines_append_newline, h.filled, h'.filled, List.map_append]

theorem indent (h : HasLines s lines) : HasLines (Text.indent 1 s) (lines.map .deeper) := by
  refine ⟨return_not_mem_indent h.no_return, ?_⟩
  rw [filledLines_indent h.no_return, h.filled, List.map_map, List.map_map]
  exact List.map_congr_left fun l _ => l.text_deeper.symm

/-- A block in front of what is nested less. -/
theorem nested {body : List Statement} (h' : HasLines t lines')
    (h : HasLines ("\n".intercalate (renderAll body)) (outlineAll 0 body)) :
    HasLines (blockText (renderAll body) ++ t) (outlineAll 1 body ++ lines') := by
  rw [outlineAll_succ]
  cases body with
  | nil => simpa [renderAll, blockText, outlineAll] using h'
  | cons first rest =>
    have hall := h.indent.newline h'
    simpa [renderAll, blockText] using hall

end HasLines

theorem return_not_mem_returnText {values : List String}
    (h : ∀ value ∈ values, '\r' ∉ value.toList) : '\r' ∉ (returnText values).toList := by
  have hlist : '\r' ∉ (", ".intercalate values).toList := by
    induction values with
    | nil => exact List.not_mem_nil
    | cons value values ih =>
      obtain ⟨hvalue, hrest⟩ := List.forall_mem_cons.mp h
      cases values with
      | nil => simpa using hvalue
      | cons value' values =>
        have hlist := ih hrest
        rw [String.intercalate_cons_cons, String.toList_append, String.toList_append]
        simpa [-String.toList_intercalate] using ⟨hvalue, hlist⟩
  unfold returnText
  split
  · decide
  · simpa using hlist

mutual

theorem hasLines_render : ∀ s : Statement, (∀ text ∈ s.texts, '\r' ∉ text.toList) →
    HasLines s.render (s.outline 0)
  | .raw code, h => .of_text (h code (List.mem_singleton_self code))
  | .blank, _ => ⟨List.not_mem_nil, rfl⟩
  | .ifThen condition body, h => by
    rw [Statement.texts, List.forall_mem_cons] at h
    have hopen : HasLines ("if " ++ condition ++ " \x7b") _ := .of_text (by simpa using h.1)
    have hclose : HasLines "\x7d" _ := .of_text (by decide)
    have hall := hopen.newline (hclose.nested (hasLines_renderAll body h.2))
    simpa [Statement.render, Statement.outline, outlineAll_succ 0, String.append_assoc] using hall
  | .ifElse condition body alternative, h => by
    rw [Statement.texts, List.forall_mem_cons, List.forall_mem_append] at h
    have hopen : HasLines ("if " ++ condition ++ " \x7b") _ := .of_text (by simpa using h.1)
    have helse : HasLines "\x7d else \x7b" _ := .of_text (by decide)
    have hclose : HasLines "\x7d" _ := .of_text (by decide)
    have hlast := helse.newline (hclose.nested (hasLines_renderAll alternative h.2.2))
    have hall := hopen.newline (hlast.nested (hasLines_renderAll body h.2.1))
    simpa [Statement.render, Statement.outline, outlineAll_succ 0, String.append_assoc] using hall
  | .returns values, h => .of_text (return_not_mem_returnText h)

theorem hasLines_renderAll : ∀ body : List Statement,
    (∀ text ∈ textsOfAll body, '\r' ∉ text.toList) →
    HasLines ("\n".intercalate (renderAll body)) (outlineAll 0 body)
  | [], _ => ⟨List.not_mem_nil, rfl⟩
  | s :: rest, h => by
    rw [textsOfAll, List.forall_mem_append] at h
    have hfirst := hasLines_render s h.1
    cases rest with
    | nil => simpa [renderAll, outlineAll] using hfirst
    | cons s' rest =>
      have hall := hfirst.newline (hasLines_renderAll (s' :: rest) h.2)
      rw [renderAll, renderAll, String.intercalate_cons_cons]
      exact hall

end

/-! ## Functions -/

namespace Function

/-- A function up to its body. -/
def header (f : Function) : String :=
  renderDoc f.doc ++ "func " ++
    (match f.receiver with
      | none => ""
      | some receiver => "(" ++ renderField receiver ++ ") ") ++
    f.name ++ "(" ++ ", ".intercalate (renderParams f.variadic f.params) ++ ")" ++
    renderResults f.results ++ " \x7b"

theorem render_eq_header (f : Function) :
    f.render = f.header ++ "\n" ++ (blockText (renderAll f.body) ++ "\x7d") := by
  simp only [render, header, String.append_assoc]
  rfl

/-- Between its header and its closing brace, a function has the lines of its statements, each with
a tab for every block around it, and no other lines but empty ones. -/
theorem emission_keeps_lines (f : Function) (h : ∀ text ∈ textsOfAll f.body, '\r' ∉ text.toList) :
    ∃ block, f.render = f.header ++ "\n" ++ block ++ "\x7d" ∧
      (block = "" ∨ ∃ lines, block = lines ++ "\n") ∧
      filledLines block = (outlineAll 1 f.body).map NestedLine.text ∧
      filledLines f.render =
        filledLines f.header ++ (outlineAll 1 f.body).map NestedLine.text ++ ["\x7d"] := by
  have hbody := hasLines_renderAll f.body h
  have hblock : HasLines (blockText (renderAll f.body) ++ "") (outlineAll 1 f.body ++ []) :=
    HasLines.nested ⟨List.not_mem_nil, rfl⟩ hbody
  have hclose : HasLines "\x7d" [⟨0, "\x7d"⟩] := HasLines.of_text (by decide)
  refine ⟨blockText (renderAll f.body), ?_, ?_, ?_, ?_⟩
  · simp only [render_eq_header, String.append_assoc]
  · unfold blockText
    split
    · exact .inl rfl
    · exact .inr ⟨_, rfl⟩
  · simpa using hblock.filled
  · rw [render_eq_header, filledLines_append_newline, (hclose.nested hbody).filled]
    simp [NestedLine.text_zero]

/-- Deeply nested code with several lines, empty ones among them, an empty branch, and returns with
and without values. -/
def branching : Function where
  doc := some "Get reads a value.\n\nIt may fail."
  receiver := none
  name := "get"
  params := [⟨"key", .predeclared "string"⟩]
  results := [⟨"", .predeclared "error"⟩]
  variadic := false
  body := [
    .raw "defer func() \x7b\n\tdone()\n\n\x7d()\n",
    .blank,
    .ifElse "key == \"\""
      [.raw "count++", .ifThen "strict" [.blank, .raw "\nlog(\n\tkey)\n\n", .returns ["errEmpty"]]]
      [],
    .ifThen "done" [.returns []],
    .returns ["nil"]]

theorem branching_keeps_lines :
    (∀ text ∈ textsOfAll branching.body, '\r' ∉ text.toList) ∧
      filledLines branching.render =
        filledLines branching.header ++ [
          "\tdefer func() \x7b",
          "\t\tdone()",
          "\t\x7d()",
          "\tif key == \"\" \x7b",
          "\t\tcount++",
          "\t\tif strict \x7b",
          "\t\t\tlog(",
          "\t\t\t\tkey)",
          "\t\t\treturn errEmpty",
          "\t\t\x7d",
          "\t\x7d else \x7b",
          "\t\x7d",
          "\tif done \x7b",
          "\t\treturn",
          "\t\x7d",
          "\treturn nil",
          "\x7d"] := by
  have hreturn : ∀ text ∈ textsOfAll branching.body, '\r' ∉ text.toList := by decide
  obtain ⟨block, -, -, -, hlines⟩ := emission_keeps_lines branching hreturn
  refine ⟨hreturn, hlines.trans ?_⟩
  rw [List.append_assoc]
  refine congrArg (filledLines branching.header ++ ·) ?_
  decide

end Function

end Interposer.Wrapper
