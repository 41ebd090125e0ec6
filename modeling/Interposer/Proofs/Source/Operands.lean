import Interposer.Proofs.Source.Names
import Interposer.Proofs.Source.Surface

/-! Words of values where an operand begins. Go predeclares them as it does other names, so that a
type may be called like one; the grammar takes them for the values there. A function that returns
the address of a literal of such a type has no reading (`Contains.not_reading`). -/

namespace Interposer.Source

/-! ## Runs, piece by piece -/

namespace Monitor.Run

variable {σ : Type} {M : Monitor σ} {q : σ} {stack stack' : List σ} {l : Lexeme}
  {ls ls' : List Lexeme}

theorem exists_append (h : M.Run stack (ls ++ ls') stack') :
    ∃ stack₁, M.Run stack ls stack₁ ∧ M.Run stack₁ ls' stack' := by
  induction ls generalizing stack with
  | nil => exact ⟨stack, .nil, h⟩
  | cons l ls ih =>
    cases h with
    | skip hskip h =>
      obtain ⟨stack₁, hfirst, hrest⟩ := ih h
      exact ⟨stack₁, .skip hskip hfirst, hrest⟩
    | read hmatch hnext h =>
      obtain ⟨stack₁, hfirst, hrest⟩ := ih h
      exact ⟨stack₁, .read hmatch hnext hfirst, hrest⟩

/-- A lexeme that is not passed over is read. -/
theorem exists_read (h : M.Run stack (l :: ls) stack')
    (hl : l.terminal ≠ .newline ∧ l.terminal ≠ .comment) : ∃ place t stack₁,
      l.Matches place t ∧ M.next stack place t = some stack₁ ∧ M.Run stack₁ ls stack' := by
  cases h with
  | skip hskip => exact (hskip.elim hl.1 hl.2).elim
  | read hmatch hnext h => exact ⟨_, _, _, hmatch, hnext, h⟩

/-- A lexeme other than a bracket takes a run from state to state. -/
theorem exists_step (h : M.Run (q :: stack) (l :: ls) stack') (hl : l.terminal.isInner = true)
    (hcomment : l.terminal ≠ .comment) : ∃ place t q',
      l.Matches place t ∧ M.step q place t = some q' ∧ M.Run (q' :: stack) ls stack' := by
  have hne : l.terminal ≠ .newline := fun heq => by rw [heq] at hl; cases hl
  obtain ⟨place, t, stack₁, hmatch, hnext, h⟩ := h.exists_read ⟨hne, hcomment⟩
  simp only [Terminal.isInner, Bool.and_eq_true, Bool.not_eq_true'] at hl
  have hopens : t.opens = false :=
    (hmatch.iff_terminal (P := Terminal.opens) (by decide)).symm.trans hl.1.2
  have hcloses : t.closes = false :=
    (hmatch.iff_terminal (P := Terminal.closes) (by decide)).symm.trans hl.2
  rw [next, hopens, hcloses, if_neg Bool.false_ne_true, if_neg Bool.false_ne_true] at hnext
  obtain ⟨q', hstep, rfl⟩ := Option.map_eq_some_iff.mp hnext
  exact ⟨place, t, q', hmatch, hstep, h⟩

/-- After an opening bracket a run is inside of it. -/
theorem exists_inner (h : M.Run stack (l :: ls) stack') (hl : l.terminal.opens = true) :
    (∃ q outer place t, stack = q :: outer ∧ l.Matches place t ∧ (M.step q place t).isSome) ∧
      ∃ outer, M.Run (M.inner :: outer) ls stack' := by
  have hne : l.terminal ≠ .newline ∧ l.terminal ≠ .comment := by
    constructor <;> intro heq <;> rw [heq] at hl <;> cases hl
  obtain ⟨place, t, stack₁, hmatch, hnext, h⟩ := h.exists_read hne
  have hopens : t.opens = true :=
    (hmatch.iff_terminal (P := Terminal.opens) (by decide)).symm.trans hl
  cases stack with
  | nil => cases hnext
  | cons q outer =>
    rw [next, if_pos hopens] at hnext
    obtain ⟨q', hstep, rfl⟩ := Option.map_eq_some_iff.mp hnext
    exact ⟨⟨q, outer, place, t, rfl, hmatch, Option.isSome_of_eq_some hstep⟩, q' :: outer, h⟩

end Monitor.Run

/-! ## Addresses that are returned -/

/-- Whether a terminal is a word of a value. -/
def Terminal.isValue : Terminal → Bool
  | .kwNew | .kwMake | .kwNil | .kwTrue | .kwFalse | .kwIota => true
  | _ => false

theorem exists_isValue {word : String} (h : word ∈ valueWords) :
    ∃ k, Lexer.keyword? word.toList = some k ∧ k.isValue = true := by
  have hwords : ∀ word ∈ valueWords,
      (Lexer.keyword? word.toList).any Terminal.isValue = true := by decide
  exact (Option.any_eq_true ..).mp (hwords word h)

/-- How far a phrase is from a value whose address is returned. -/
inductive Returning where
  | elsewhere
  | listed
  | returned
  | address
  | value
  deriving DecidableEq

def Returning.after : Terminal → Returning
  | .kwReturn => .returned
  | .comma => .listed
  | _ => .elsewhere

/-- The monitor that objects to a brace after such a value, and to an identifier in place of it
where no operand begins. -/
def returning : Monitor Returning where
  inner := .elsewhere
  step
    | .listed, _, t => some (.after t)
    | _, .listed, _ | .value, _, .leftBrace | .address, .other, .identifier => none
    | .returned, _, .ampersand => some .address
    | .address, _, t => some (if t.isValue then .value else .after t)
    | _, _, t => some (.after t)

/-- Nonterminals whose phrases may end with a return. -/
def Nonterminal.mayReturn : Nonterminal → Bool
  | .statements | .statement | .labeledStmt | .returnStmt | .expressionCase | .defaultCase
  | .typeCase | .commCase | .moreStatements | .moreExpressionCases | .moreTypeCases
  | .moreCommCases => true
  | _ => false

/-- Nonterminals whose phrases may be a value or the address of one. -/
def Nonterminal.mayBeValue : Nonterminal → Bool
  | .expressions | .simpleStmt | .expressionStmt | .receiveStmt | .expression | .element
  | .unaryExpr => true
  | _ => false

/-- Nonterminals whose phrases may begin with a brace. -/
def Nonterminal.mayBeBraced : Nonterminal → Bool
  | .fieldDecls | .block | .statements | .statement | .literalValue | .element | .keyedElement
  | .moreItems => true
  | _ => false

def returningTable : Monitor.Table Returning
  | .file, _, q | .text, _, q => if q = .elsewhere then some [.elsewhere] else none
  | n, _, .elsewhere | n, _, .listed =>
    if n.mayReturn then some [.elsewhere, .returned, .value] else some [.elsewhere]
  | n, place, q =>
    if q = .value ∧ n.mayBeBraced ∨ q = .address ∧ place ≠ .operand ∧ n ≠ .expression then none
    else if n.mayReturn then some [.elsewhere, .returned, .value]
    else if q ≠ .value ∧ n.mayBeValue then some [.elsewhere, .value]
    else some [.elsewhere]

theorem returning_closed : returning.Closed returningTable :=
  Monitor.closed_of_isClosed [.elsewhere, .listed, .returned, .address, .value]
    (fun q => by cases q <;> decide) (by decide +kernel)

/-- A block that begins by returning the address of a literal, up to the literal's braces. -/
def returnOfAddress (w : List Char) : List Lexeme :=
  [⟨.leftBrace, ['\x7b']⟩, ⟨.newline, ['\n']⟩, ⟨.identifier, "return".toList⟩, ⟨.ampersand, ['&']⟩,
    ⟨.identifier, w⟩, ⟨.leftBrace, ['\x7b']⟩]

theorem admits_value {k : Terminal} (hk : k.isValue = true) : Place.operand.admits k = false := by
  cases k <;> first | rfl | cases hk

theorem returning_value {t : Terminal} {place : Place} {q : Returning} (ht : t.isValue = true)
    (h : returning.step .address place t = some q) : q = .value := by
  have hne : t ≠ .identifier := fun heq => by rw [heq] at ht; cases ht
  cases place with
  | listed => cases h
  | operand | other => simp_all [returning]

theorem not_run_returnOfAddress {w : List Char} {k : Terminal} (hw : Lexer.keyword? w = some k)
    (hk : k.isValue = true) {stack stack' : List Returning} {ls : List Lexeme} :
    ¬ returning.Run stack (returnOfAddress w ++ ls) stack' := by
  intro h
  obtain ⟨-, outer, h⟩ := h.exists_inner rfl
  have hline : returning.Run (.elsewhere :: outer)
      (⟨.identifier, "return".toList⟩ :: ⟨.ampersand, ['&']⟩ :: ⟨.identifier, w⟩ ::
        ⟨.leftBrace, ['\x7b']⟩ :: ls) stack' := by
    cases h with
    | skip _ h => exact h
    | @read _ _ _ place _ _ _ hmatch hnext h =>
      obtain rfl := show _ = Terminal.newline from hmatch
      cases place <;> cases hnext <;> exact h
  obtain ⟨place, t, q, hmatch, hstep, h⟩ := hline.exists_step rfl nofun
  obtain rfl : q = .returned := by
    rcases hmatch with rfl | ⟨rfl, hadmits⟩
    · cases place <;> cases hstep <;> rfl
    · cases place with
      | listed => cases hstep
      | operand | other => cases hadmits
  obtain ⟨place, t, q, hmatch, hstep, h⟩ := h.exists_step rfl nofun
  obtain rfl : q = .address := by
    obtain rfl := show _ = Terminal.ampersand from hmatch
    cases place <;> cases hstep <;> rfl
  obtain ⟨place, t, q, hmatch, hstep, h⟩ := h.exists_step rfl nofun
  obtain rfl : q = .value := by
    have hkeyword : Lexeme.keyword? ⟨.identifier, w⟩ = some k := hw
    rw [Lexeme.Matches, hkeyword] at hmatch
    rcases hmatch with heq | ⟨rfl, hadmits⟩
    · exact returning_value (heq ▸ hk) hstep
    · cases place with
      | listed | other => cases hstep
      | operand => rw [admits_value hk] at hadmits; cases hadmits
  -- There is no step over the brace from here.
  obtain ⟨⟨q, outer, place, t, hstack, hmatch, hsome⟩, -⟩ := h.exists_inner rfl
  cases hstack
  obtain rfl := show _ = Terminal.leftBrace from hmatch
  cases place <;> cases hsome

/-! ## Texts with such an address -/

/-- A text with some lexemes in it, whatever is around them. -/
def Contains (cs : List Char) (ls : List Lexeme) : Prop :=
  ∃ before after : List Lexeme, Scans cs (before ++ (ls ++ after))

namespace Contains

variable {cs cs' : List Char} {ls ls' : List Lexeme}

theorem append (h : Contains cs ls) (h' : Scans cs' ls') (hfree : Free cs') :
    Contains (cs ++ cs') ls := by
  obtain ⟨before, after, h⟩ := h
  exact ⟨before, after ++ ls', by simpa using h.append h' hfree⟩

theorem prepend (h : Contains cs' ls) (h' : Scans cs ls') (hfree : Free cs') :
    Contains (cs ++ cs') ls := by
  obtain ⟨before, after, h⟩ := h
  exact ⟨ls' ++ before, after, by simpa using h'.append h hfree⟩

theorem newline (h : Contains cs ls) : Contains ('\n' :: cs) ls := by
  obtain ⟨before, after, h⟩ := h
  exact ⟨_ :: before, after, h.newline⟩

theorem comment {text : List Char} (htext : ∀ c ∈ text, c ≠ '\n' ∧ c ≠ '\r' ∧ c ≠ '\x00')
    (h : Contains cs ls) : Contains ('/' :: '/' :: text ++ '\n' :: cs) ls := by
  obtain ⟨before, after, h⟩ := h
  exact ⟨_ :: _ :: before, after, h.comment htext⟩

theorem returnOfAddress {w : List Char} (hw : IsWord w) (h : Scans cs ls) :
    Contains (' ' :: '\x7b' :: '\n' :: '\t' :: ("return".toList ++
      ' ' :: '&' :: (w ++ '\x7b' :: cs))) (Source.returnOfAddress w) := by
  have hbrace : (['\x7b'], Terminal.leftBrace) ∈ fullOperators := by decide
  have hreturn : IsWord "return".toList := .of_all (by decide)
  have hliteral := hw.scans.append (h.operator hbrace) (free_cons rfl _)
  obtain ⟨c, w, rfl, hstart, -⟩ := hw
  have hampersand : ∀ c ∈ ['&'], c ≠ '\n' ∧ c ≠ '\r' := List.forall_mem_singleton.mpr (by decide)
  have haddress : Scans ('&' :: ((c :: w) ++ '\x7b' :: cs)) _ :=
    .chunk (List.cons_ne_nil '&' []) hampersand (chunk_ampersand hstart) hliteral
  have hline := hreturn.scans.append (haddress.space (.inl rfl)) (free_cons rfl _)
  exact ⟨[], ls, ((hline.space (.inr rfl)).newline.operator hbrace).space (.inl rfl)⟩

/-- **No function returns the address of a value's literal**, as far as the grammar can tell. -/
theorem not_reading {word : String} (hword : word ∈ valueWords)
    (h : Contains cs (Source.returnOfAddress word.toList)) (hlast : ∀ c ∈ cs.getLast?, c = '\n') :
    ¬ ∃ tree, Reading cs tree := by
  obtain ⟨before, after, hscans⟩ := h
  rintro ⟨_, hlexes, hbefore, hway, hderives, hafter, -⟩
  have hallows := returning_closed .file .other .elsewhere [.elsewhere] rfl _ hway
  obtain ⟨stack, hrun, -⟩ := Monitor.run_of_allows returning_closed hderives hallows
  have hall := (Monitor.run_of_extras hbefore _).append
    (hrun.append (Monitor.run_of_extras hafter stack))
  rw [hlexes.unique (hscans.lexes_of_getLast? hlast)] at hall
  obtain ⟨k, hk, hvalue⟩ := exists_isValue hword
  obtain ⟨_, -, hrest⟩ := hall.exists_append
  exact not_run_returnOfAddress hk hvalue hrest

end Contains

end Interposer.Source
