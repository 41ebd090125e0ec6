import Interposer.Proofs.Source.Reading
import Interposer.Proofs.Text.Lines
import Interposer.Proofs.Text.Span
import Interposer.Text.Quoted
import Mathlib.Data.List.Basic

/-! Texts whose lexemes are known, put together from pieces of lines (`Scans`). A piece has its
lexemes wherever the right character follows it, so texts can be joined (`Scans.append`) and lines
can be indented (`Scans.indent`), and the lexemes stay the same. -/

namespace Interposer.Source

/-! ## Pieces of lines -/

theorem Lexes.of_inside_eq {last last' : Terminal} {cs : List Char} {ls : List Lexeme}
    (h : Lexes last cs ls) (heq : inside last = inside last') : Lexes last' cs ls := by
  cases h with
  | done hout => exact .done (heq ▸ hout)
  | inString hfound h => exact .inString (heq ▸ hfound) h
  | token hout hfound h => exact .token (heq ▸ hout) hfound h
  | newline hout h => exact .newline (heq ▸ hout) h
  | space hout hspace hne h => exact .space (heq ▸ hout) hspace hne h

/-- Whether a character is the one that comes next, or where none is given, whether it does not go
on with a word. -/
def Follows (next : Option Char) (c : Char) : Prop :=
  match next with
  | some c' => c' = c
  | none => Text.isWordChar c = false

/-- A piece of a line has some lexemes wherever the right character follows it. -/
def Chunk (text : List Char) (ls : List Lexeme) (next : Option Char) : Prop :=
  ∀ c rest rls, Follows next c → Lexes .newline (c :: rest) rls →
    Lexes .newline (text ++ c :: rest) (ls ++ rls)

/-- A text that does not begin in the middle of a word. -/
def Free (cs : List Char) : Prop := ∀ c ∈ cs.head?, Text.isWordChar c = false

variable {text cs cs' : List Char} {ls ls' : List Lexeme} {next : Option Char} {t : Terminal}

theorem Chunk.of_none (h : Chunk text ls none) (hfree : Free cs) : Chunk text ls cs.head? := by
  intro c rest rls hc hrest
  refine h c rest rls ?_ hrest
  cases cs with
  | nil => exact hc
  | cons c' cs => exact hc ▸ hfree c' rfl

theorem chunk_token (hout : inside t = ∅) (hfound : ∀ c rest, Follows next c →
    Lexer.longest (Lexer.candidates Lexer.anything (text ++ c :: rest)) = some (t, text.length)) :
    Chunk text [⟨t, text⟩] next := by
  intro c rest rls hc hrest
  have hdrop : Lexes t ((text ++ c :: rest).drop text.length) rls := by
    rw [List.drop_left]
    exact hrest.of_inside_eq hout.symm
  have h : Lexes .newline (text ++ c :: rest) _ := .token rfl (hfound c rest hc) hdrop
  rwa [List.take_left] at h

/-! ## Texts -/

/-- A text with its lexemes, whatever it is followed by, words aside. -/
inductive Scans : List Char → List Lexeme → Prop
  | nil : Scans [] []
  | newline {cs : List Char} {ls : List Lexeme} :
      Scans cs ls → Scans ('\n' :: cs) (⟨.newline, ['\n']⟩ :: ls)
  | chunk {text cs : List Char} {ls ls' : List Lexeme} : text ≠ [] →
      (∀ c ∈ text, c ≠ '\n' ∧ c ≠ '\r') → Chunk text ls cs.head? → Scans cs ls' →
      Scans (text ++ cs) (ls ++ ls')

namespace Scans

/-- Where a text ends with a line, nothing has to follow it. -/
theorem lexes_of_getLast? (h : Scans cs ls)
    (hlast : ∀ c ∈ cs.getLast?, c = '\n') : Lexes .newline cs ls := by
  induction h with
  | nil => exact .done rfl
  | @newline cs ls _ ih =>
    refine .newline rfl (ih fun c hc => hlast c ?_)
    rw [List.getLast?_cons, Option.mem_def.mp hc]
    rfl
  | @chunk text cs ls ls' hne hline hchunk _ ih =>
    cases cs with
    | nil =>
      have hmem := List.getLast_mem hne
      refine absurd (hlast _ ?_) (hline _ hmem).1
      rw [List.append_nil, List.getLast?_eq_some_getLast hne]
      exact Option.mem_some_self _
    | cons c cs =>
      refine hchunk c cs _ rfl (ih fun c' hc' => hlast c' ?_)
      rwa [List.getLast?_append_cons]

theorem append (h : Scans cs ls) (h' : Scans cs' ls') (hfree : Free cs') :
    Scans (cs ++ cs') (ls ++ ls') := by
  induction h with
  | nil => exact h'
  | newline _ ih => exact .newline ih
  | @chunk text cs _ _ hne hline hchunk _ ih =>
    rw [List.append_assoc, List.append_assoc]
    refine .chunk hne hline ?_ ih
    cases cs with
    | nil => exact hchunk.of_none hfree
    | cons c cs => exact hchunk

theorem of_chunk (hne : text ≠ []) (hline : ∀ c ∈ text, c ≠ '\n' ∧ c ≠ '\r')
    (h : Chunk text ls none) : Scans text ls := by
  simpa using Scans.chunk hne hline h .nil

theorem space {c : Char} (hc : c = ' ' ∨ c = '\t') (h : Scans cs ls) : Scans (c :: cs) ls := by
  have hspace : Lexer.isSpace c = true ∧ c ≠ '\n' ∧ c ≠ '\r' := by
    rcases hc with rfl | rfl <;> decide
  have hchunk : Chunk [c] [] cs.head? := fun c' rest rls _ hrest =>
    show Lexes .newline (c :: c' :: rest) rls from .space rfl hspace.1 hspace.2.1 hrest
  exact .chunk (List.cons_ne_nil c []) (by simpa using hspace.2) hchunk h

theorem not_mem_return (h : Scans cs ls) : '\r' ∉ cs := by
  induction h with
  | nil => exact List.not_mem_nil
  | newline _ ih => exact fun hmem => (List.mem_cons.mp hmem).elim nofun ih
  | chunk _ hline _ _ ih =>
    exact fun hmem => (List.mem_append.mp hmem).elim (fun hmem => (hline _ hmem).2 rfl) ih

end Scans

/-! ## Indentation -/

/-- A tab before every line that is not empty. -/
def indented (atStart : Bool) : List Char → List Char
  | [] => []
  | c :: cs =>
    if c = '\n' then c :: indented true cs
    else if atStart then '\t' :: c :: indented false cs
    else c :: indented false cs

theorem indented_line (hline : ∀ c ∈ text, c ≠ '\n' ∧ c ≠ '\r') (cs : List Char) :
    indented false (text ++ cs) = text ++ indented false cs := by
  induction text with
  | nil => rfl
  | cons c text ih =>
    obtain ⟨hc, hline⟩ := List.forall_mem_cons.mp hline
    rw [List.cons_append, indented, if_neg hc.1, ih hline]
    rfl

theorem head?_indented_false (cs : List Char) : (indented false cs).head? = cs.head? := by
  cases cs with
  | nil => rfl
  | cons c cs => rw [indented]; split <;> rfl

/-- Indentation keeps all lexemes. -/
theorem Scans.indent (h : Scans cs ls) (atStart : Bool) : Scans (indented atStart cs) ls := by
  induction h generalizing atStart with
  | nil => exact .nil
  | newline _ ih => exact .newline (ih true)
  | @chunk text cs ls ls' hne hline hchunk _ ih =>
    have hrest : Scans (indented false (text ++ cs)) (ls ++ ls') := by
      rw [indented_line hline]
      exact .chunk hne hline (by rwa [head?_indented_false]) (ih false)
    cases atStart with
    | false => exact hrest
    | true =>
      cases text with
      | nil => exact absurd rfl hne
      | cons c text =>
        have hc := hline c List.mem_cons_self
        rw [List.cons_append, indented, if_neg hc.1] at hrest ⊢
        exact .space (.inr rfl) hrest

/-- A line with a tab before it, unless it is empty. -/
def tabbed (line : List Char) : List Char := if line = [] then [] else '\t' :: line

/-- Indentation goes line by line; a line feed at the end is none between lines. -/
theorem indented_splitLines (hreturn : '\r' ∉ cs) (hne : cs ≠ []) : ∃ line lines rest,
    Text.splitLines cs = line :: lines ∧ (rest = [] ∨ rest = ['\n']) ∧
      indented false cs = line ++ (lines.flatMap (fun line => '\n' :: tabbed line) ++ rest) ∧
      indented true cs =
        tabbed line ++ (lines.flatMap (fun line => '\n' :: tabbed line) ++ rest) := by
  induction cs with
  | nil => exact absurd rfl hne
  | cons c cs ih =>
    simp only [List.mem_cons, not_or] at hreturn
    by_cases hempty : cs = []
    · subst hempty
      by_cases hc : c = '\n'
      · subst hc
        exact ⟨[], [], ['\n'], rfl, .inr rfl, rfl, rfl⟩
      · refine ⟨[c], [], [], ?_, .inl rfl, ?_, ?_⟩
        · rw [Text.splitLines.eq_4 c [] hc (fun _ h => absurd h.symm hreturn.1)]
          rfl
        · simp [indented, hc]
        · simp [indented, hc, tabbed]
    obtain ⟨line, lines, rest, hlines, hrest, hfalse, htrue⟩ := ih hreturn.2 hempty
    by_cases hc : c = '\n'
    · subst hc
      refine ⟨[], line :: lines, rest, ?_, hrest, ?_, ?_⟩
      · rw [Text.splitLines, hlines]
      · simp [indented, htrue]
      · simp [indented, htrue, tabbed]
    · refine ⟨c :: line, lines, rest, ?_, hrest, ?_, ?_⟩
      · rw [Text.splitLines.eq_4 c cs hc (fun _ h => absurd h.symm hreturn.1), hlines]
      · simp [indented, hc, hfalse]
      · simp [indented, hc, hfalse, tabbed]

theorem toList_indentLine (line : List Char) :
    (Text.indentLine 1 (String.ofList line)).toList = tabbed line := by
  unfold Text.indentLine tabbed
  cases line <;> simp

/-- Whatever the text, indentation loses at most a line feed at its end. -/
theorem indent_append {s : String} (hreturn : '\r' ∉ s.toList) (hne : s ≠ "") :
    ∃ rest, (rest = [] ∨ rest = ['\n']) ∧
      (Text.indent 1 s).toList ++ rest = indented true s.toList := by
  obtain ⟨line, lines, rest, hlines, hrest, -, htrue⟩ :=
    indented_splitLines hreturn (fun h => hne (String.toList_injective h))
  refine ⟨rest, hrest, ?_⟩
  have htabbed : ((Text.lines s).map (Text.indentLine 1)).map String.toList =
      (line :: lines).map tabbed := by
    rw [Text.lines, hlines, List.map_map, List.map_map]
    exact List.map_congr_left fun line _ => toList_indentLine line
  rw [htrue, Text.indent, String.toList_intercalate, htabbed, List.map_cons, Text.intercalate_cons,
    List.flatMap_map, List.append_assoc]
  rfl

/-! ## Words -/

/-- Whether a text is a word of its own. -/
def IsWord (w : List Char) : Prop :=
  ∃ c cs, w = c :: cs ∧ Text.isWordStart c = true ∧ ∀ c' ∈ cs, Text.isWordChar c' = true

theorem IsWord.of_all {w : List Char}
    (h : (w.head?.any Text.isWordStart && w.tail.all Text.isWordChar) = true) : IsWord w := by
  cases w with
  | nil => cases h
  | cons c cs =>
    obtain ⟨hstart, hall⟩ := Bool.and_eq_true_iff.mp h
    exact ⟨c, cs, rfl, hstart, List.all_eq_true.mp hall⟩

theorem operatorsAt_of_isWordStart {c : Char} (h : Text.isWordStart c = true) (valid : TerminalSet)
    (cs : List Char) : Lexer.operatorsAt valid (c :: cs) = [] := by
  have hfirst : ∀ p ∈ Lexer.operatorTable, p.1.head?.any (!Text.isWordStart ·) = true := by
    decide
  refine List.filterMap_eq_nil_iff.mpr fun p hp => ?_
  have ho := hfirst p hp
  obtain ⟨_ | ⟨o, os⟩, t⟩ := p
  · cases ho
  · have hne : (o == c) = false := beq_false_of_ne fun heq => by simp [heq, h] at ho
    simp [List.isPrefixOf, hne]

theorem IsWord.length {w : List Char} (h : IsWord w) {c : Char} (hc : Text.isWordChar c = false)
    (rest : List Char) : Lexer.word (w ++ c :: rest) = w.length := by
  obtain ⟨c₀, cs, rfl, hstart, hall⟩ := h
  rw [List.cons_append, Lexer.word, if_pos hstart, List.takeWhile_append_of_pos hall,
    List.takeWhile_cons_of_neg (by simp [hc]), List.append_nil]
  rfl

theorem not_isDigit_of_isWordStart {c : Char} (h : Text.isWordStart c = true) :
    c.isDigit = false := by
  refine Bool.eq_false_iff.mpr fun hdigit => ?_
  simp only [Char.isDigit, Bool.and_eq_true, decide_eq_true_eq, UInt32.le_iff_toNat_le,
    ge_iff_le] at hdigit
  have hdigits : ∀ n ≤ 57, 48 ≤ n → Text.isWordStart (Char.ofNat n) = false := by decide
  have hnone := hdigits c.toNat hdigit.2 hdigit.1
  rw [Char.ofNat_toNat, h] at hnone
  cases hnone

/-- No word begins like a token of another kind. -/
theorem candidates_of_isWordStart {c : Char} (h : Text.isWordStart c = true) (cs : List Char) :
    Lexer.candidates Lexer.anything (c :: cs) = [(.identifier, Lexer.word (c :: cs))] := by
  have hother : ∀ c', Text.isWordStart c' = false → (c == c') = false := fun c' h' =>
    beq_false_of_ne fun heq => by rw [← heq, h] at h'; cases h'
  have hdigit := not_isDigit_of_isWordStart h
  rw [Lexer.candidates, operatorsAt_of_isWordStart h]
  simp only [hdigit, hother '.' rfl, hother '\'' rfl, hother '/' rfl, hother '\n' rfl,
    hother '"' rfl, hother '\x60' rfl]
  rfl

theorem IsWord.chunk {w : List Char} (h : IsWord w) : Chunk w [⟨.identifier, w⟩] none := by
  refine chunk_token rfl fun c rest hc => ?_
  have hlength := h.length hc rest
  obtain ⟨c₀, cs, rfl, hstart, -⟩ := h
  rw [List.cons_append, candidates_of_isWordStart hstart, ← List.cons_append, hlength]
  rfl

/-! ## Operators -/

/-- Only the operators with the right first character count. -/
theorem operatorsAt_cons (valid : TerminalSet) (o : Char) (cs : List Char) :
    Lexer.operatorsAt valid (o :: cs) =
      (Lexer.operatorTable.filter (·.1.head? = some o)).filterMap fun p =>
        if p.1.isPrefixOf (o :: cs) && valid.contains p.2 then some (p.2, p.1.length)
        else none := by
  have hne : ∀ p ∈ Lexer.operatorTable, p.1 ≠ [] := by decide
  rw [List.filterMap_filter]
  refine List.filterMap_congr fun p hp => ?_
  obtain ⟨_ | ⟨o', os⟩, t⟩ := p
  · exact absurd rfl (hne _ hp)
  · by_cases heq : o' = o
    · simp [heq]
    · simp [heq]

/-- Operators that no other character goes on with. -/
def fullOperators : List (List Char × Terminal) :=
  [(['('], .leftParen), ([')'], .rightParen), (['['], .leftBracket), ([']'], .rightBracket),
    (['\x7b'], .leftBrace), (['\x7d'], .rightBrace), ([','], .comma), ([';'], .semicolon),
    (['.', '.', '.'], .ellipsis), ([':', '='], .define), (['=', '='], .equal),
    (['!', '='], .notEqual)]

theorem chunk_fullOperator {p : List Char × Terminal} (h : p ∈ fullOperators) :
    Chunk p.1 [⟨p.2, p.1⟩] next := by
  have hout : inside p.2 = ∅ := by
    revert p
    decide
  refine chunk_token hout fun c rest _ => ?_
  simp only [fullOperators, List.mem_cons, List.not_mem_nil, or_false] at h
  rcases h with rfl | rfl | rfl | rfl | rfl | rfl | rfl | rfl | rfl | rfl | rfl | rfl <;> rfl

theorem Scans.operator {o : List Char} (ho : (o, t) ∈ fullOperators) (h : Scans cs ls) :
    Scans (o ++ cs) (⟨t, o⟩ :: ls) := by
  have hoperators : ∀ p ∈ fullOperators, p.1 ≠ [] ∧ ∀ c ∈ p.1, c ≠ '\n' ∧ c ≠ '\r' := by
    simp [fullOperators]
  obtain ⟨hne, hline⟩ := hoperators _ ho
  exact .chunk hne hline (chunk_fullOperator ho) h

theorem chunk_assign : Chunk ['='] [⟨.assign, ['=']⟩] (some ' ') :=
  chunk_token rfl fun _ _ hc => hc ▸ rfl

theorem chunk_colon : Chunk [':'] [⟨.colon, [':']⟩] (some ' ') :=
  chunk_token rfl fun _ _ hc => hc ▸ rfl

theorem chunk_star {c : Char} (h : c ≠ '=') : Chunk ['*'] [⟨.star, ['*']⟩] (some c) := by
  refine chunk_token rfl fun c' rest hc => ?_
  obtain rfl : c = c' := hc
  have hne : ('=' == c) = false := beq_false_of_ne h.symm
  have hops : Lexer.operatorsAt Lexer.anything ('*' :: c :: rest) = [(.star, 1)] := by
    rw [operatorsAt_cons, show Lexer.operatorTable.filter (·.1.head? = some '*') =
      [(['*'], .star), (['*', '='], .starAssign)] from rfl]
    simp only [List.filterMap_cons, List.isPrefixOf_cons_cons, hne, Bool.false_and, Bool.and_false]
    rfl
  rw [List.singleton_append, Lexer.candidates, hops]
  rfl

theorem chunk_ampersand {c : Char} (h : Text.isWordStart c = true) :
    Chunk ['&'] [⟨.ampersand, ['&']⟩] (some c) := by
  refine chunk_token rfl fun c' rest hc => ?_
  obtain rfl : c = c' := hc
  have hne : ∀ o, Text.isWordStart o = false → (o == c) = false := fun o ho =>
    beq_false_of_ne fun heq => by rw [heq, h] at ho; cases ho
  have hops : Lexer.operatorsAt Lexer.anything ('&' :: c :: rest) = [(.ampersand, 1)] := by
    rw [operatorsAt_cons, show Lexer.operatorTable.filter (·.1.head? = some '&') =
      [(['&', '='], .ampersandAssign), (['&', '^', '='], .ampersandCaretAssign),
        (['&'], .ampersand), (['&', '^'], .ampersandCaret), (['&', '&'], .logicalAnd)] from rfl]
    simp only [List.filterMap_cons, List.isPrefixOf_cons_cons, hne '=' rfl, hne '^' rfl,
      hne '&' rfl, Bool.false_and, Bool.and_false]
    rfl
  rw [List.singleton_append, Lexer.candidates, hops]
  rfl

theorem chunk_dot {c : Char} (h : Text.isWordStart c = true) :
    Chunk ['.'] [⟨.dot, ['.']⟩] (some c) := by
  refine chunk_token rfl fun c' rest hc => ?_
  obtain rfl : c = c' := hc
  have hne : ('.' == c) = false := beq_false_of_ne fun heq => by rw [← heq] at h; cases h
  have hops : Lexer.operatorsAt Lexer.anything ('.' :: c :: rest) = [(.dot, 1)] := by
    rw [operatorsAt_cons, show Lexer.operatorTable.filter (·.1.head? = some '.') =
      [(['.'], .dot), (['.', '.', '.'], .ellipsis)] from rfl]
    simp only [List.filterMap_cons, List.isPrefixOf_cons_cons, hne, Bool.false_and, Bool.and_false]
    rfl
  have hfloat : Number.decimalFloat ('.' :: c :: rest) = 0 := by
    simp [Number.decimalFloat, Number.digits, not_isDigit_of_isWordStart h]
  have hnumber : Number.float ('.' :: c :: rest) = 0 ∧ Number.imaginary ('.' :: c :: rest) = 0 := by
    rw [Number.float, Number.imaginary, hfloat]
    exact ⟨rfl, rfl⟩
  rw [List.singleton_append, Lexer.candidates, hops, hnumber.1, hnumber.2]
  rfl

/-! ## Numbers -/

theorem moreDigits_append {p : Char → Bool} {ds : List Char} (hds : ∀ d ∈ ds, p d = true)
    {c : Char} (hc : p c = false) (hne : c ≠ '_') (rest : List Char) :
    Number.moreDigits p (ds ++ c :: rest) = ds.length := by
  induction ds with
  | nil => cases rest <;> simp [Number.moreDigits, hc, hne]
  | cons d ds ih =>
    obtain ⟨hd, hds⟩ := List.forall_mem_cons.mp hds
    obtain ⟨e, es, hes⟩ := List.exists_cons_of_ne_nil (List.append_ne_nil_of_right_ne_nil ds
      (List.cons_ne_nil c rest))
    rw [List.cons_append, hes, Number.moreDigits, if_pos hd, ← hes, ih hds, Nat.add_comm]
    rfl

theorem digits_append {p : Char → Bool} {ds : List Char} (hds : ∀ d ∈ ds, p d = true)
    {c : Char} (hc : p c = false) (hne : c ≠ '_') (rest : List Char) :
    Number.digits p (ds ++ c :: rest) = ds.length := by
  cases ds with
  | nil => simp [Number.digits, hc]
  | cons d ds =>
    obtain ⟨hd, hds⟩ := List.forall_mem_cons.mp hds
    rw [List.cons_append, Number.digits, if_pos hd, moreDigits_append hds hc hne, Nat.add_comm]
    rfl

/-- A decimal number that a bracket follows is that number. -/
theorem integer_append {d : Char} {ds : List Char} (hds : ∀ d' ∈ d :: ds, d'.isDigit = true)
    (hzero : d = '0' → ds = []) (rest : List Char) :
    Number.integer (d :: ds ++ ']' :: rest) = (d :: ds).length := by
  obtain ⟨hd, hds⟩ := List.forall_mem_cons.mp hds
  by_cases h : d = '0'
  · rw [h, hzero h]
    rfl
  have hmore : Number.prefixedDigits Char.isDigit (ds ++ ']' :: rest) = ds.length := by
    rw [Number.prefixedDigits.eq_2, digits_append hds rfl (by decide)]
    rintro cs heq
    cases ds with
    | nil => cases heq
    | cons d' ds => cases heq; exact absurd (hds '_' List.mem_cons_self) (by decide)
  rw [List.cons_append, Number.integer.eq_2, if_neg h, if_pos hd, hmore, Nat.add_comm]
  · rfl
  · intro c cs heq
    cases heq
    exact absurd rfl h

theorem decimalFloat_append {ds : List Char} (hds : ∀ d ∈ ds, d.isDigit = true)
    (rest : List Char) : Number.decimalFloat (ds ++ ']' :: rest) = 0 := by
  have hexponent : Number.exponent 'e' 'E' (']' :: rest) = 0 := by cases rest <;> rfl
  rw [Number.decimalFloat, digits_append hds rfl (by decide), List.drop_left]
  split
  · next heq => cases heq
  · rw [hexponent]
    cases ds.length <;> rfl

theorem hexFloat_append {d : Char} {ds : List Char} (hzero : d = '0' → ds = [])
    (rest : List Char) : Number.hexFloat (d :: ds ++ ']' :: rest) = 0 := by
  by_cases h : d = '0'
  · rw [h, hzero h]
    rfl
  · rw [Number.hexFloat.eq_2]
    exact fun x cs heq => h (List.cons.inj heq).1

theorem chunk_number (n : Nat) :
    Chunk (toString n).toList [⟨.intLiteral, (toString n).toList⟩] (some ']') := by
  refine chunk_token rfl fun c rest hc => ?_
  obtain rfl : ']' = c := hc
  obtain ⟨d, ds, htext, hall, hempty⟩ := Text.toString_eq_cons n
  have hd := hall d List.mem_cons_self
  have hint := integer_append hall hempty rest
  have hdec := digits_append hall (show ']'.isDigit = false from rfl) (by decide) rest
  have himaginary : Number.imaginary (d :: ds ++ ']' :: rest) = 0 := by
    rw [Number.imaginary, hint, hdec, decimalFloat_append hall, hexFloat_append hempty]
    simp only [List.foldl_cons, List.foldl_nil, List.drop_left]
    rfl
  have hword : Text.isWordStart d = false := by
    refine Bool.eq_false_iff.mpr fun h => ?_
    rw [not_isDigit_of_isWordStart h] at hd
    cases hd
  have hops : Lexer.operatorsAt Lexer.anything (d :: ds ++ ']' :: rest) = [] := by
    have hfirst : ∀ p ∈ Lexer.operatorTable, p.1.head?.any (!·.isDigit) = true := by decide
    rw [List.cons_append, operatorsAt_cons, List.filter_eq_nil_iff.mpr]
    · rfl
    · intro p hp heq
      have := hfirst p hp
      simp only [of_decide_eq_true heq, Option.any_some, hd] at this
      cases this
  have hnoword : Lexer.word (d :: ds ++ ']' :: rest) = 0 := by
    rw [List.cons_append, Lexer.word, hword]
    rfl
  have hkinds : Lexer.candidates Lexer.anything (d :: ds ++ ']' :: rest) =
      [(.intLiteral, (d :: ds).length), (.floatLiteral, 0), (.imaginaryLiteral, 0),
        (.identifier, 0)] := by
    rw [List.cons_append, Lexer.candidates, ← List.cons_append, hops, hint, himaginary, hnoword,
      Number.float, decimalFloat_append hall, hexFloat_append hempty, hd]
    rfl
  rw [htext, hkinds]
  simp [Lexer.longest]

theorem not_break_number (n : Nat) :
    (toString n).toList ≠ [] ∧ ∀ c ∈ (toString n).toList, c ≠ '\n' ∧ c ≠ '\r' := by
  obtain ⟨d, ds, htext, hall, -⟩ := Text.toString_eq_cons n
  rw [htext]
  refine ⟨List.cons_ne_nil d ds, fun c hc => ⟨?_, ?_⟩⟩
  · rintro rfl; exact absurd (hall _ hc) (by decide)
  · rintro rfl; exact absurd (hall _ hc) (by decide)

/-! ## Comments -/

theorem chunk_comment {cs : List Char} (h : ∀ c ∈ cs, c ≠ '\n' ∧ c ≠ '\x00') :
    Chunk ('/' :: '/' :: cs) [⟨.comment, '/' :: '/' :: cs⟩] (some '\n') := by
  refine chunk_token rfl fun c rest hc => ?_
  obtain rfl : '\n' = c := hc
  have hall : ∀ c ∈ cs, (decide (c ≠ '\n') && decide (c ≠ '\x00')) = true := by simpa using h
  have hlength : Lexer.comment ('/' :: '/' :: cs ++ '\n' :: rest) = cs.length + 2 := by
    rw [List.cons_append, List.cons_append, Lexer.comment, List.takeWhile_append_of_pos hall]
    simp
  have hkinds : Lexer.candidates Lexer.anything ('/' :: '/' :: cs ++ '\n' :: rest) =
      [(.comment, cs.length + 2), (.identifier, 0), (.slash, 1)] := by
    rw [List.cons_append, List.cons_append, Lexer.candidates, ← List.cons_append,
      ← List.cons_append, hlength]
    rfl
  rw [hkinds]
  simp [Lexer.longest]

/-- A comment up to the end of its line. -/
theorem Scans.comment (htext : ∀ c ∈ text, c ≠ '\n' ∧ c ≠ '\r' ∧ c ≠ '\x00') (h : Scans cs ls) :
    Scans ('/' :: '/' :: text ++ '\n' :: cs)
      (⟨.comment, '/' :: '/' :: text⟩ :: ⟨.newline, ['\n']⟩ :: ls) := by
  have hline : ∀ c ∈ '/' :: '/' :: text, c ≠ '\n' ∧ c ≠ '\r' := by
    simpa using fun c hc => ⟨(htext c hc).1, (htext c hc).2.1⟩
  exact .chunk (List.cons_ne_nil _ _) hline
    (chunk_comment fun c hc => ⟨(htext c hc).1, (htext c hc).2.2⟩) h.newline

/-! ## Strings -/

theorem isHexDigit_hexDigit (n : Nat) : isHexDigit (Text.hexDigit (n % 16)) = true := by
  have hall : ∀ n < 16, isHexDigit (Text.hexDigit n) = true := by decide
  exact hall _ (Nat.mod_lt _ (by decide))

/-- In a string a character stands for itself, or there is an escape for it. -/
theorem escapeChar_cases (c : Char) :
    Text.escapeChar c = [c] ∧ Lexer.isQuotedContent c = true ∨
      ∃ e, Text.escapeChar c = '\\' :: e ∧
        ∀ cs, Escape.length ('\\' :: (e ++ cs)) = e.length + 1 := by
  unfold Text.escapeChar
  split
  · exact .inr ⟨['"'], rfl, fun _ => rfl⟩
  split
  · exact .inr ⟨['\\'], rfl, fun _ => rfl⟩
  split
  · exact .inr ⟨['n'], rfl, fun _ => rfl⟩
  split
  · exact .inr ⟨['r'], rfl, fun _ => rfl⟩
  split
  · exact .inr ⟨['t'], rfl, fun _ => rfl⟩
  split
  · refine .inr ⟨_, rfl, fun cs => ?_⟩
    simp [Escape.length, escapeDigits?, hexDigits, isHexDigit_hexDigit]
  · next hquote hbackslash hnewline _ _ hcontrol =>
    refine .inl ⟨rfl, ?_⟩
    have hnull : c ≠ '\x00' := by
      rintro rfl
      exact hcontrol rfl
    simp [Lexer.isQuotedContent, *]

theorem not_break_escapeChar (c : Char) : ∀ c' ∈ Text.escapeChar c, c' ≠ '\n' ∧ c' ≠ '\r' := by
  have hhex : ∀ n, Text.hexDigit (n % 16) ≠ '\n' ∧ Text.hexDigit (n % 16) ≠ '\r' := by
    have hall : ∀ n < 16, Text.hexDigit n ≠ '\n' ∧ Text.hexDigit n ≠ '\r' := by decide
    exact fun n => hall _ (Nat.mod_lt _ (by decide))
  unfold Text.escapeChar
  split_ifs with hquote hbackslash hnewline hreturn htab hcontrol
  all_goals simp [Text.unicodeEscape, *]

/-- The tokens that stand in strings. -/
def Terminal.isInString (t : Terminal) : Bool := t = .quotedContent || t = .escape

theorem inString_escape {cs : List Char} {n : Nat} (h : Escape.length ('\\' :: cs) = n + 1) :
    Lexer.inString (inside .openQuote) ('\\' :: cs) = some (.escape, n + 1) := by
  have heq : Lexer.inString (inside .openQuote) ('\\' :: cs) =
      if (true && decide (0 < Escape.length ('\\' :: cs))) = true then
        some (.escape, Escape.length ('\\' :: cs))
      else none := rfl
  rw [heq, h]
  simp

/-- Content goes on up to the first escape or to the end of the string. -/
theorem inString_content {run cs : List Char} (hne : run ≠ [])
    (hrun : ∀ c ∈ run, Lexer.isQuotedContent c = true)
    (hcs : cs.takeWhile Lexer.isQuotedContent = []) :
    Lexer.inString (inside .openQuote) (run ++ cs) = some (.quotedContent, run.length) := by
  have htake : (run ++ cs).takeWhile Lexer.isQuotedContent = run := by
    rw [List.takeWhile_append_of_pos hrun, hcs, List.append_nil]
  obtain ⟨c, run, rfl⟩ := List.exists_cons_of_ne_nil hne
  rw [List.cons_append] at htake ⊢
  rw [Lexer.inString, if_neg (by decide), htake, hrun c List.mem_cons_self]
  rfl

/-- Whether a character stands for itself in a string. -/
def isPlain (c : Char) : Bool := Text.escapeChar c = [c]

theorem isQuotedContent_of_isPlain {c : Char} (h : isPlain c = true) :
    Lexer.isQuotedContent c = true := by
  have hplain := of_decide_eq_true h
  rcases escapeChar_cases c with ⟨-, hcontent⟩ | ⟨e, he, hlength⟩
  · exact hcontent
  · rw [he] at hplain
    cases hplain
    exact nomatch hlength []

theorem flatMap_of_isPlain {run : List Char} (h : ∀ c ∈ run, isPlain c = true) :
    run.flatMap Text.escapeChar = run := by
  induction run with
  | nil => rfl
  | cons c run ih =>
    obtain ⟨hc, hrun⟩ := List.forall_mem_cons.mp h
    rw [List.flatMap_cons, of_decide_eq_true hc, ih hrun]
    rfl

theorem takeWhile_escaped {s : List Char} (h : s.takeWhile isPlain = []) (rest : List Char) :
    (s.flatMap Text.escapeChar ++ '"' :: rest).takeWhile Lexer.isQuotedContent = [] := by
  cases s with
  | nil => rfl
  | cons c s =>
    rcases escapeChar_cases c with ⟨hplain, -⟩ | ⟨e, he, -⟩
    · simp [isPlain, hplain] at h
    · rw [List.flatMap_cons, he]
      rfl

theorem takeWhile_dropWhile (p : Char → Bool) (cs : List Char) :
    (cs.dropWhile p).takeWhile p = [] := by
  induction cs with
  | nil => rfl
  | cons c cs ih =>
    by_cases hc : p c = true
    · rwa [List.dropWhile_cons_of_pos hc]
    · rw [List.dropWhile_cons_of_neg hc, List.takeWhile_cons_of_neg hc]

/-- What is quoted consists of escapes and of runs of what needs none. -/
theorem lexes_quoted (s : List Char) : ∃ ls : List Lexeme,
    (∀ l ∈ ls, l.terminal.isInString = true) ∧ ∀ rest rls, Lexes .closeQuote rest rls →
      Lexes .openQuote (s.flatMap Text.escapeChar ++ '"' :: rest)
        (ls ++ ⟨.closeQuote, ['"']⟩ :: rls) := by
  induction hn : s.length using Nat.strongRecOn generalizing s with
  | ind n ih =>
  cases hrun : s.takeWhile isPlain with
  | cons c run =>
    have hsplit := List.takeWhile_append_dropWhile (p := isPlain) (l := s)
    rw [hrun] at hsplit
    have hplain : ∀ c' ∈ c :: run, isPlain c' = true := fun c' hc' =>
      List.all_eq_true.mp List.all_takeWhile c' (hrun ▸ hc')
    have hlt : (s.dropWhile isPlain).length < n := by
      have := congrArg List.length hsplit
      simp only [List.length_append, List.length_cons] at this
      omega
    obtain ⟨ls, hls, hlexes⟩ := ih _ hlt _ rfl
    refine ⟨⟨.quotedContent, c :: run⟩ :: ls, List.forall_mem_cons.mpr ⟨rfl, hls⟩,
      fun rest rls h => ?_⟩
    have hrest : Lexes .quotedContent _ _ := (hlexes rest rls h).of_inside_eq rfl
    rw [← hsplit, List.flatMap_append, flatMap_of_isPlain hplain, List.append_assoc]
    have hcontent : Lexes .openQuote ((c :: run) ++ _) _ :=
      .inString (inString_content (List.cons_ne_nil c run)
        (fun c' hc' => isQuotedContent_of_isPlain (hplain c' hc'))
        (takeWhile_escaped (takeWhile_dropWhile isPlain s) rest)) (by simpa using hrest)
    simpa using hcontent
  | nil =>
    cases s with
    | nil => exact ⟨[], nofun, fun rest rls h => .inString (n := 1) rfl h⟩
    | cons c s =>
      rcases escapeChar_cases c with ⟨hplain, -⟩ | ⟨e, he, hlength⟩
      · simp [isPlain, hplain] at hrun
      · obtain ⟨ls, hls, hlexes⟩ := ih s.length (by rw [← hn]; exact Nat.lt_succ_self _) s rfl
        refine ⟨⟨.escape, '\\' :: e⟩ :: ls, List.forall_mem_cons.mpr ⟨rfl, hls⟩,
          fun rest rls h => ?_⟩
        have hrest : Lexes .escape _ _ := (hlexes rest rls h).of_inside_eq rfl
        rw [List.flatMap_cons, he, List.append_assoc, List.cons_append]
        have hstring : Lexes .openQuote ('\\' :: (e ++ _)) _ :=
          .inString (inString_escape (hlength _)) (by simpa using hrest)
        simpa using hstring

theorem not_break_quote (s : String) :
    ∀ c ∈ (Text.quote s).toList, c ≠ '\n' ∧ c ≠ '\r' := by
  intro c hc
  rw [Text.quote, String.toList_ofList, List.mem_cons, List.mem_append, List.mem_singleton] at hc
  rcases hc with rfl | hc | rfl
  · decide
  · obtain ⟨c', -, hc'⟩ := List.mem_flatMap.mp hc
    exact not_break_escapeChar c' c hc'
  · decide

/-- The lexemes of a quoted string. -/
theorem chunk_quote (s : String) : ∃ ls : List Lexeme,
    (∀ l ∈ ls, l.terminal.isInString = true) ∧ ∀ next, Chunk (Text.quote s).toList
      (⟨.openQuote, ['"']⟩ :: (ls ++ [⟨.closeQuote, ['"']⟩])) next := by
  obtain ⟨ls, hls, hlexes⟩ := lexes_quoted s.toList
  refine ⟨ls, hls, fun next c rest rls _ hrest => ?_⟩
  have hquoted := hlexes _ _ (hrest.of_inside_eq (by rfl))
  have hopen : Lexes .newline ('"' :: _) _ := .token (n := 1) rfl rfl hquoted
  simpa [Text.quote] using hopen

end Interposer.Source
