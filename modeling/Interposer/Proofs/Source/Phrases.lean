import Interposer.Proofs.Source.Spelling

/-! Expressions and statements of the kinds that generated code has: names, calls, literals,
assignments, blocks. Statements stand on lines of their own, maybe with empty lines between them. -/

namespace Interposer.Source

open Spelled

variable {place : Place} {cs cs' : List Char} {items : List (List Char)}

/-! ## Expressions -/

/-- A text that is an expression. -/
def IsExpression (cs : List Char) : Prop := Spelled .operand [.nonterminal .expression] cs

/-- What an argument of a call may be. -/
def arguments : List Nonterminal := [.expression, .variadicArg]

namespace IsExpression

theorem spelled (h : IsExpression cs) (place : Place) :
    Spelled place [.nonterminal .expression] cs :=
  h.mono (Nat.zero_le _)

theorem name (h : IsName cs) : IsExpression cs := name_expression h

/-- A member of what an expression stands for. -/
theorem member {w : List Char} (h : IsExpression cs) (hw : IsName w) :
    IsExpression (cs ++ '.' :: w) := by
  obtain ⟨c, w', rfl, hstart, -⟩ := hw.isWord
  have hdot : Spelled .other [.terminal .dot, .terminal .identifier] ('.' :: ((c :: w') ++ [])) :=
    operator_char (by decide) nofun (chunk_dot hstart)
      (Spelled.name hw (Nat.le_refl _) nil free_nil)
  rw [List.append_nil] at hdot
  exact of_way [.nonterminal .selectorExpr] (by decide)
    (of_way _ (by decide) ((h.spelled _).append hdot (free_cons rfl _)))

theorem quote (s : String) : IsExpression (Text.quote s).toList :=
  of_way [.nonterminal .quotedString] (by decide) (quotedString s)

theorem argument (h : IsExpression cs) : OneOf arguments .other cs :=
  ⟨_, List.mem_cons_self, h.spelled _⟩

theorem spread (h : IsExpression cs) : OneOf arguments .other (cs ++ ['.', '.', '.']) :=
  ⟨.variadicArg, by decide,
    of_way [.nonterminal .expression, .terminal .ellipsis] (by decide)
      ((h.spelled _).append (operator (o := ['.', '.', '.']) (by decide) nil) (free_cons rfl _))⟩

theorem call (h : IsExpression cs) (hitems : ∀ cs ∈ items, OneOf arguments .other cs) :
    IsExpression (cs ++ Brackets.parens.wrap ([',', ' '].intercalate items)) := by
  have hargs : Fills .parens .args _ :=
    .of_list arguments .moreArgs (by decide) (by decide) hitems
  exact of_way [.nonterminal .callExpr] (by decide)
    (of_way [.nonterminal .expression, .nonterminal .args] (by decide)
      ((h.spelled _).append (hargs.spelled _) (Brackets.free_wrap _ _)))

theorem callMember {w : List Char} (h : IsExpression cs) (hw : IsName w)
    (hitems : ∀ cs ∈ items, OneOf arguments .other cs) :
    IsExpression (cs ++ '.' :: (w ++ Brackets.parens.wrap ([',', ' '].intercalate items))) := by
  simpa using (h.member hw).call hitems

/-- A comparison with `==` or `!=`. -/
theorem compare {o : Terminal} {w : List Char} (h : IsExpression cs) (h' : IsExpression cs')
    (ho : (w, o) ∈ fullOperators)
    (hway : [.nonterminal .expression, .terminal o, .nonterminal .expression] ∈
      Nonterminal.binaryExpr.ways) : IsExpression (cs ++ ' ' :: (w ++ ' ' :: cs')) :=
  of_way [.nonterminal .binaryExpr] (by decide) (of_way _ hway ((h.spelled _).append
    (space (.inl rfl) (operator ho (space (.inl rfl) (h'.spelled _)))) (free_cons rfl _)))

theorem parenthesized (h : IsExpression cs) : IsExpression (Brackets.parens.wrap cs) := by
  have hfills : Fills .parens .parenExpr cs := ⟨[.expression], by decide, h.spelled _⟩
  exact of_way [.nonterminal .parenExpr] (by decide) (hfills.spelled _)

/-- What a pointer points to. -/
theorem pointee {w : List Char} (hw : IsWord w) (h : IsExpression (w ++ cs)) :
    IsExpression ('*' :: (w ++ cs)) := by
  obtain ⟨c, w, rfl, hstart, -⟩ := hw
  have hc : c ≠ '=' := by
    rintro rfl
    cases hstart
  exact of_way [.nonterminal .unaryExpr] (by decide)
    (of_way [.terminal .star, .nonterminal .expression] (by decide)
      (operator_char (by decide) nofun (chunk_star hc) (h.spelled _)))

theorem address {w : List Char} (hw : IsWord w) (h : IsExpression (w ++ cs)) :
    IsExpression ('&' :: (w ++ cs)) := by
  obtain ⟨c, w, rfl, hstart, -⟩ := hw
  exact of_way [.nonterminal .unaryExpr] (by decide)
    (of_way [.terminal .ampersand, .nonterminal .expression] (by decide)
      (operator_char (by decide) nofun (chunk_ampersand hstart) (h.spelled _)))

end IsExpression

/-! ## Composite literals -/

/-- An entry of a literal, with its key. -/
def IsEntry (cs : List Char) : Prop := Spelled .other [.nonterminal .keyedElement] cs

theorem IsEntry.of_expressions (h : IsExpression cs) (h' : IsExpression cs') :
    IsEntry (cs ++ ':' :: ' ' :: cs') := by
  have helement : ∀ {cs}, IsExpression cs → ∀ place, Spelled place [.nonterminal .element] cs :=
    fun h place => of_way [.nonterminal .expression] (by decide) (h.spelled _)
  exact of_way [.nonterminal .element, .terminal .colon, .nonterminal .element] (by decide)
    ((helement h _).append (operator_char (by decide) nofun chunk_colon
      (space (.inl rfl) (helement h' _))) (free_cons rfl _))

/-- A text that is an entry with a comma after it. -/
def IsListed (cs : List Char) : Prop := ∃ cs', cs = cs' ++ [','] ∧ IsEntry cs'

namespace IsListed

theorem of_expressions (h : IsExpression cs) (h' : IsExpression cs') :
    IsListed (cs ++ ':' :: ' ' :: (cs' ++ [','])) :=
  ⟨cs ++ ':' :: ' ' :: cs', by simp, .of_expressions h h'⟩

/-- Entries may be on lines of their own. -/
theorem line (h : IsListed cs) (tabs : Nat) :
    IsListed ('\n' :: (List.replicate tabs '\t' ++ cs)) := by
  obtain ⟨cs', rfl, h⟩ := h
  refine ⟨'\n' :: (List.replicate tabs '\t' ++ cs'), by simp, ?_⟩
  have htabs : IsEntry (List.replicate tabs '\t' ++ cs') := by
    induction tabs with
    | zero => exact h
    | succ tabs ih => exact ih.space (.inr rfl)
  exact htabs.newline

end IsListed

/-- What may stand in the braces of a literal. -/
def IsLiteral (cs : List Char) : Prop :=
  ∀ place, Spelled place [.nonterminal .literalValue] (Brackets.braces.wrap cs)

namespace IsLiteral

theorem of_entries (hitems : ∀ cs ∈ items, IsEntry cs) :
    IsLiteral ([',', ' '].intercalate items) := by
  have hfills : Fills .braces .literalValue _ :=
    .of_list [.keyedElement] .moreElements (by decide) (by decide)
      fun cs hcs => ⟨_, List.mem_singleton_self _, hitems cs hcs⟩
  exact hfills.spelled

/-- Entries that end in commas. -/
theorem exists_listed (hitems : ∀ cs ∈ items, IsListed cs) (hne : items ≠ []) :
    ∃ (first : List Char) (rest : List (List Char)),
      items.flatten = first ++ rest.flatMap (',' :: ·) ++ [','] ∧
        IsEntry first ∧ ∀ cs ∈ rest, IsEntry cs := by
  induction items with
  | nil => exact absurd rfl hne
  | cons cs items ih =>
    obtain ⟨⟨entry, rfl, hentry⟩, hrest⟩ := List.forall_mem_cons.mp hitems
    by_cases hempty : items = []
    · exact ⟨entry, [], by simp [hempty], hentry, nofun⟩
    · obtain ⟨first, rest, htext, hfirst, hrest⟩ := ih hrest hempty
      exact ⟨entry, first :: rest, by simp [htext], hentry,
        List.forall_mem_cons.mpr ⟨hfirst, hrest⟩⟩

/-- Entries on lines of their own. -/
theorem of_lines (blank : List Char) (hblank : ∀ c ∈ blank, c = '\n' ∨ c = '\t')
    (hitems : ∀ cs ∈ items, IsListed cs) (hne : items ≠ []) :
    IsLiteral (items.flatten ++ blank) := by
  obtain ⟨first, rest, htext, hfirst, hrest⟩ := exists_listed hitems hne
  have hmore : Repeats .moreElements [.keyedElement] := by decide
  obtain ⟨symbols, hsymbols, hlist⟩ := listed hmore ⟨_, List.mem_singleton_self _, hfirst⟩
    fun cs hcs => ⟨_, List.mem_singleton_self _, hrest cs hcs⟩
  have hclose : Spelled .listed [.terminal .rightBrace] (blank ++ ['\x7d']) := by
    clear hitems hne htext
    induction blank with
    | nil => exact operator (o := ['\x7d']) (by decide) nil
    | cons c blank ih =>
      obtain ⟨hc, hrest⟩ := List.forall_mem_cons.mp hblank
      rcases hc with rfl | rfl
      · exact (ih hrest).newline
      · exact (ih hrest).space (.inr rfl)
  have hends : Spelled (Place.other.through (symbols.map .nonterminal))
      [.terminal .comma, .terminal .rightBrace] (',' :: (blank ++ ['\x7d'])) :=
    operator (o := [',']) (by decide) hclose
  have hways : ∀ symbols ∈ lists [.keyedElement] .moreElements, .terminal .leftBrace ::
      (symbols.map .nonterminal ++ [.terminal .comma, .terminal .rightBrace]) ∈
        Nonterminal.literalValue.ways := by decide
  intro place
  have hall : Spelled place [.nonterminal .literalValue] _ := of_way _ (hways symbols hsymbols)
    (operator (o := ['\x7b']) (by decide) (hlist.append hends (free_cons rfl _)))
  rw [htext]
  simpa [Brackets.wrap, Brackets.opening, Brackets.closing] using hall

end IsLiteral

/-- A literal for a type that is written as some symbols. -/
theorem IsExpression.literal {symbols : List Symbol}
    (hway : symbols ++ [.nonterminal .literalValue] ∈ Nonterminal.compositeLiteral.ways)
    (h : Spelled .operand symbols cs) (h' : IsLiteral cs') :
    IsExpression (cs ++ Brackets.braces.wrap cs') :=
  of_way [.nonterminal .compositeLiteral] (by decide)
    (of_way _ hway (h.append (h' _) (Brackets.free_wrap _ _)))

/-! ## Simple statements -/

/-- A text that is a list of expressions. -/
def IsExpressions (cs : List Char) : Prop := Spelled .operand [.nonterminal .expressions] cs

namespace IsExpressions

theorem of_expression (h : IsExpression cs) : IsExpressions cs :=
  of_way [.nonterminal .expression] (by decide) h

theorem of_list (hitems : ∀ cs ∈ items, IsExpression cs) (hne : items ≠ []) :
    IsExpressions ([',', ' '].intercalate items) := by
  have hmore : Repeats .moreExpressions [.expression] := by decide
  obtain ⟨symbols, hsymbols, hlist⟩ :=
    list hmore (fun cs hcs => ⟨_, List.mem_singleton_self _, hitems cs hcs⟩) hne
  have hways : ∀ symbols ∈ lists [.expression] .moreExpressions,
      symbols.map .nonterminal ∈ Nonterminal.expressions.ways := by decide
  exact of_way _ (hways symbols hsymbols) hlist

end IsExpressions

/-- A text that is a statement by itself. -/
def IsSimple (cs : List Char) : Prop := Spelled .operand [.nonterminal .simpleStmt] cs

namespace IsSimple

theorem of_expression (h : IsExpression cs) : IsSimple cs :=
  of_way [.nonterminal .expressionStmt] (by decide)
    (of_way [.nonterminal .expression] (by decide) h)

theorem assign (h : IsExpressions cs) (h' : IsExpressions cs') :
    IsSimple (cs ++ ' ' :: '=' :: ' ' :: cs') :=
  of_way [.nonterminal .assignment] (by decide)
    (of_way [.nonterminal .expressions, .terminal .assign, .nonterminal .expressions] (by decide)
      (h.append (space (.inl rfl) (operator_char (by decide) nofun chunk_assign
        (space (.inl rfl) (h'.mono (Nat.zero_le _))))) (free_cons rfl _)))

theorem define (h : IsExpressions cs) (h' : IsExpressions cs') :
    IsSimple (cs ++ ' ' :: ':' :: '=' :: ' ' :: cs') :=
  of_way [.nonterminal .shortVarDecl] (by decide)
    (of_way [.nonterminal .expressions, .terminal .define, .nonterminal .expressions] (by decide)
      (h.append (space (.inl rfl) (operator (o := [':', '=']) (by decide)
        (space (.inl rfl) (h'.mono (Nat.zero_le _))))) (free_cons rfl _)))

end IsSimple

/-! ## Statements -/

/-- A text of statements that come after others. -/
structure IsMore (cs : List Char) : Prop where
  free : Free cs
  spelled : Spelled .operand [.nonterminal .moreStatements] cs

theorem IsMore.append (h : IsMore cs) (h' : IsMore cs') : IsMore (cs ++ cs') where
  free := by
    cases cs with
    | nil => exact h'.free
    | cons c cs => exact h.free
  spelled := of_way [.nonterminal .moreStatements, .nonterminal .moreStatements] (by decide)
    (h.spelled.append (h'.spelled.mono (Nat.zero_le _)) h'.free)

/-- A text of one statement, with more after it or not. -/
def IsStatements (cs : List Char) : Prop := ∃ first rest, cs = first ++ rest ∧
  Spelled .operand [.nonterminal .statement] first ∧ (rest = [] ∨ IsMore rest)

namespace IsStatements

theorem of_way (way : List Symbol) (hway : way ∈ Nonterminal.statement.ways)
    (h : Spelled .operand way cs) : IsStatements cs :=
  ⟨cs, [], (List.append_nil cs).symm, Spelled.of_way way hway h, .inl rfl⟩

theorem of_simple (h : IsSimple cs) : IsStatements cs :=
  of_way [.nonterminal .simpleStmt] (by decide) h

theorem defer (h : IsExpression cs) : IsStatements ("defer".toList ++ ' ' :: cs) :=
  of_way [.nonterminal .deferStmt] (by decide)
    (Spelled.of_way [.terminal .kwDefer, .nonterminal .expression] (by decide)
      (keyword (.of_all (by decide)) (by decide) (space (.inl rfl) (h.spelled _))
        (free_cons rfl _)))

theorem returns (h : IsExpressions cs) : IsStatements ("return".toList ++ ' ' :: cs) :=
  of_way [.nonterminal .returnStmt] (by decide)
    (Spelled.of_way [.terminal .kwReturn, .nonterminal .expressions] (by decide)
      (keyword (.of_all (by decide)) (by decide) (space (.inl rfl) (h.mono (Nat.zero_le _)))
        (free_cons rfl _)))

theorem isMore (h : IsStatements cs) : IsMore ('\n' :: cs) := by
  obtain ⟨first, rest, rfl, hfirst, hrest⟩ := h
  have hmore : IsMore ('\n' :: first) := ⟨free_cons rfl _,
    Spelled.of_way [.terminal .newline, .nonterminal .statement] (by decide)
      (terminator (hfirst.mono (Nat.zero_le _)))⟩
  rcases hrest with rfl | hrest
  · rwa [List.append_nil]
  · exact hmore.append hrest

/-- Statements on lines after others. -/
theorem append (h : IsStatements cs) (h' : IsStatements cs') :
    IsStatements (cs ++ '\n' :: cs') := by
  obtain ⟨first, rest, rfl, hfirst, hrest⟩ := h
  refine ⟨first, rest ++ '\n' :: cs', List.append_assoc .., hfirst, .inr ?_⟩
  rcases hrest with rfl | hrest
  · exact h'.isMore
  · exact hrest.append h'.isMore

theorem newlines_append (h : IsStatements cs) (hcs' : ∀ c ∈ cs', c = '\n') :
    IsStatements (cs' ++ cs) := by
  obtain ⟨first, rest, rfl, hfirst, hrest⟩ := h
  refine ⟨cs' ++ first, rest, (List.append_assoc ..).symm, ?_, hrest⟩
  clear hrest
  induction cs' with
  | nil => exact hfirst
  | cons c cs' ih =>
    obtain ⟨rfl, hrest⟩ := List.forall_mem_cons.mp hcs'
    exact (ih hrest).newline

theorem append_newlines (h : IsStatements cs) (hcs' : ∀ c ∈ cs', c = '\n') :
    IsStatements (cs ++ cs') := by
  obtain ⟨first, rest, rfl, hfirst, hrest⟩ := h
  rcases hrest with rfl | hrest
  · exact ⟨first ++ cs', [], by simp, hfirst.append_newlines hcs', .inl rfl⟩
  · refine ⟨first, rest ++ cs', List.append_assoc .., hfirst, .inr ⟨?_, ?_⟩⟩
    · cases rest with
      | nil => exact fun c hc => hcs' c (List.mem_of_mem_head? hc) ▸ rfl
      | cons c rest => exact hrest.free
    · exact hrest.spelled.append_newlines hcs'

theorem spelled (h : IsStatements cs) (place : Place) :
    Spelled place [.nonterminal .statements] cs := by
  obtain ⟨first, rest, rfl, hfirst, hrest⟩ := h
  have hfirst' := hfirst.mono (Nat.zero_le (place.within .statements).rank)
  rcases hrest with rfl | ⟨hfree, hrest⟩
  · rw [List.append_nil]
    exact Spelled.of_way [.nonterminal .statement] (by decide) hfirst'
  · exact Spelled.of_way [.nonterminal .statement, .nonterminal .moreStatements] (by decide)
      (hfirst'.append (hrest.mono (Nat.zero_le _)) hfree)

end IsStatements

/-! ## Blocks -/

/-- A text of statements, or of empty lines alone. -/
def IsBody (cs : List Char) : Prop := (∀ c ∈ cs, c = '\n') ∨ IsStatements cs

namespace IsBody

theorem append (h : IsBody cs) (h' : IsBody cs') : IsBody (cs ++ '\n' :: cs') := by
  rcases h with h | h <;> rcases h' with h' | h'
  · left
    simpa [or_imp, forall_and] using ⟨h, h'⟩
  · right
    have hblank : ∀ c ∈ cs ++ ['\n'], c = '\n' := by simpa [or_imp, forall_and] using h
    simpa using h'.newlines_append hblank
  · right
    exact h.append_newlines (List.forall_mem_cons.mpr ⟨rfl, h'⟩)
  · right
    exact h.append h'

theorem lines (hitems : ∀ cs ∈ items, IsBody cs) : IsBody (['\n'].intercalate items) := by
  induction items with
  | nil => exact .inl nofun
  | cons cs items ih =>
    obtain ⟨hcs, hrest⟩ := List.forall_mem_cons.mp hitems
    cases items with
    | nil => simpa using hcs
    | cons cs' items =>
      rw [List.intercalate_cons_cons]
      simpa using hcs.append (ih hrest)

theorem fills (h : IsBody cs) : Fills .braces .block cs := by
  rcases h with h | h
  · exact ⟨[], by decide, newlines h _⟩
  · exact ⟨[.statements], by decide, h.spelled _⟩

end IsBody

namespace Fills

variable {b : Brackets} {n : Nonterminal}

theorem newline (h : Fills b n cs) : Fills b n ('\n' :: cs) := by
  obtain ⟨phrases, hway, h⟩ := h
  exact ⟨phrases, hway, h.newline⟩

/-- The lines in brackets may be one level deeper. -/
theorem indent {s : String} (h : Fills b n s.toList) :
    Fills b n ((Text.indent 1 s).toList ++ ['\n']) := by
  obtain ⟨phrases, hway, h⟩ := h
  refine ⟨phrases, hway, ?_⟩
  by_cases hempty : s = ""
  · subst hempty
    have hline : Spelled .other (phrases.map .nonterminal) ([] ++ ['\n']) :=
      h.append_newlines (by simp)
    exact hline
  have hreturn : '\r' ∉ s.toList := by
    obtain ⟨_, _, _, _, hscans, -⟩ := h
    exact hscans.not_mem_return
  obtain ⟨rest, hrest, htext⟩ := indent_append hreturn hempty
  have hindented := h.indent true
  rw [← htext] at hindented
  rcases hrest with rfl | rfl
  · rw [List.append_nil] at hindented
    exact hindented.append_newlines (by simp)
  · exact hindented

end Fills

namespace IsStatements

/-- A conditional statement, maybe with a statement before the condition. -/
theorem ifThen {way : List Symbol}
    (hway : [.nonterminal .expression] = way ∨
      [.nonterminal .simpleStmt, .terminal .semicolon, .nonterminal .expression] = way)
    (h : Spelled .other way cs) (hblock : Fills .braces .block cs') :
    IsStatements ("if".toList ++ ' ' :: (cs ++ ' ' :: Brackets.braces.wrap cs')) := by
  have hways : .terminal .kwIf :: (way ++ [.nonterminal .block]) ∈ Nonterminal.ifStmt.ways := by
    rcases hway with rfl | rfl <;> decide
  exact of_way [.nonterminal .ifStmt] (by decide)
    (Spelled.of_way _ hways (keyword (.of_all (by decide)) (by decide) (space (.inl rfl)
      (h.append (space (.inl rfl) (hblock.spelled _)) (free_cons rfl _))) (free_cons rfl _)))

theorem ifElse {cs'' : List Char} (h : IsExpression cs) (hthen : Fills .braces .block cs')
    (helse : Fills .braces .block cs'') :
    IsStatements ("if".toList ++ ' ' :: (cs ++ ' ' :: (Brackets.braces.wrap cs' ++
      ' ' :: ("else".toList ++ ' ' :: Brackets.braces.wrap cs'')))) := by
  have hrest : ∀ place, Spelled place [.terminal .kwElse, .nonterminal .block]
      (' ' :: ("else".toList ++ ' ' :: Brackets.braces.wrap cs'')) := fun place =>
    space (.inl rfl) (keyword (.of_all (by decide)) (by decide)
      (space (.inl rfl) (helse.spelled _)) (free_cons rfl _))
  exact of_way [.nonterminal .ifStmt] (by decide)
    (Spelled.of_way [.terminal .kwIf, .nonterminal .expression, .nonterminal .block,
        .terminal .kwElse, .nonterminal .block] (by decide)
      (keyword (.of_all (by decide)) (by decide) (space (.inl rfl)
        ((h.spelled _).append (space (.inl rfl)
          ((hthen.spelled _).append (hrest _) (free_cons rfl _))) (free_cons rfl _)))
        (free_cons rfl _)))

end IsStatements

end Interposer.Source
