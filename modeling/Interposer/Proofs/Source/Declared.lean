import Interposer.Proofs.Source.Monitor

/-! What a text declares, found in its lexemes without a grammar. Outside of brackets, the keywords
of declarations stand only where a declaration begins, so the declarations can be read off the
lexemes there (`declared`). Most phrases are calm: they declare nothing (`declared_of_isCalm`). -/

namespace Interposer.Source

/-! ## Lexemes outside of brackets -/

namespace Lexeme

variable {l : Lexeme} {place : Place} {t k : Terminal}

/-- What a lexeme would be if keywords were never identifiers. -/
def kind (l : Lexeme) : Terminal := l.keyword?.getD l.terminal

theorem mem_keywords (h : l.keyword? = some k) :
    l.terminal = .identifier ∧ k ∈ Terminal.keywords.map (·.2) := by
  unfold keyword? at h
  split at h
  · next hword =>
    refine ⟨hword, ?_⟩
    obtain ⟨entry, hfound, rfl⟩ := Option.map_eq_some_iff.mp h
    obtain ⟨pair, hpair, rfl⟩ := List.mem_map.mp (List.mem_of_find?_eq_some hfound)
    exact List.mem_map_of_mem hpair
  · cases h

/-- A lexeme is taken for what it is, or is the word of a keyword that may be an identifier. -/
theorem Matches.cases (h : l.Matches place t) : l.kind = t ∨
    l.terminal = .identifier ∧ t = .identifier ∧ place.admits l.kind = true := by
  unfold Matches at h
  split at h
  · next k hk =>
    rw [kind, hk]
    exact h.imp Eq.symm fun h => ⟨(mem_keywords hk).1, h⟩
  · next hk => rw [kind, hk]; exact .inl h.symm

theorem kind_or_identifier (l : Lexeme) : l.kind = l.terminal ∨
    l.terminal = .identifier ∧ l.kind ∈ Terminal.keywords.map (·.2) := by
  cases hk : l.keyword? with
  | none => exact .inl (by rw [kind, hk]; rfl)
  | some k => exact .inr (by rw [kind, hk]; exact mem_keywords hk)

theorem Matches.terminal_eq (h : l.Matches place .identifier) : l.terminal = .identifier := by
  rcases h.cases with hkind | ⟨hterminal, -⟩
  · exact l.kind_or_identifier.elim (fun heq => heq.symm.trans hkind) (·.1)
  · exact hterminal

/-- Brackets and the like are the same to everyone. -/
theorem Matches.iff_terminal (h : l.Matches place t) {P : Terminal → Bool}
    (hwords : ∀ k ∈ .identifier :: Terminal.keywords.map (·.2), P k = false) :
    P l.terminal = P t := by
  have hword : P .identifier = false := hwords _ List.mem_cons_self
  rcases h.cases with rfl | ⟨hterminal, rfl, -⟩
  · rcases l.kind_or_identifier with heq | ⟨hterminal, hmem⟩
    · rw [heq]
    · rw [hterminal, hword, hwords _ (List.mem_cons_of_mem _ hmem)]
  · rw [hterminal]

theorem Matches.terminal_of_not_word (h : l.Matches place t)
    (ht : t ∉ .identifier :: Terminal.keywords.map (·.2)) : l.terminal = t := by
  have hwords : ∀ k ∈ .identifier :: Terminal.keywords.map (·.2), (k == t) = false :=
    fun k hk => beq_false_of_ne fun heq => ht (heq ▸ hk)
  simpa using h.iff_terminal hwords

end Lexeme

/-- The lexemes outside of brackets, with the brackets that are opened there. Of the brackets around
the text `depth` are open. Ends of lines are left out. -/
def outer : Nat → List Lexeme → List Lexeme
  | _, [] => []
  | depth, l :: ls =>
    if l.terminal = .newline then outer depth ls
    else if l.terminal.opens then (if depth = 0 then [l] else []) ++ outer (depth + 1) ls
    else if l.terminal.closes then outer (depth - 1) ls
    else (if depth = 0 then [l] else []) ++ outer depth ls

theorem outer_newline {l : Lexeme} (h : l.terminal = .newline) (depth : Nat) (ls : List Lexeme) :
    outer depth (l :: ls) = outer depth ls := by
  rw [outer, if_pos h]

theorem outer_opens {l : Lexeme} (h : l.terminal.opens = true) (depth : Nat) (ls : List Lexeme) :
    outer depth (l :: ls) = (if depth = 0 then [l] else []) ++ outer (depth + 1) ls := by
  have hne : l.terminal ≠ .newline := fun heq => by rw [heq] at h; cases h
  rw [outer, if_neg hne, if_pos h]

theorem outer_closes {l : Lexeme} (h : l.terminal.closes = true) (depth : Nat)
    (ls : List Lexeme) : outer depth (l :: ls) = outer (depth - 1) ls := by
  have hne : l.terminal ≠ .newline := fun heq => by rw [heq] at h; cases h
  have hopens : ¬ l.terminal.opens = true := fun hopens => by
    cases hl : l.terminal <;> simp_all [Terminal.opens, Terminal.closes]
  rw [outer, if_neg hne, if_neg hopens, if_pos h]

/-- Whether a lexeme stands in or outside of brackets and is neither of both. -/
def Terminal.isInner (t : Terminal) : Bool := t ≠ .newline && !t.opens && !t.closes

theorem outer_inner {l : Lexeme} (h : l.terminal.isInner = true) (depth : Nat)
    (ls : List Lexeme) :
    outer depth (l :: ls) = (if depth = 0 then [l] else []) ++ outer depth ls := by
  simp only [Terminal.isInner, Bool.and_eq_true, decide_eq_true_eq, Bool.not_eq_true'] at h
  rw [outer, if_neg h.1.1, h.1.2, h.2]
  rfl

/-! ## Calm phrases -/

/-- How far a phrase is from a declaration at its own level. -/
inductive Calm where
  | plain
  | afterFunc
  | listed
  /-- In brackets anything may be. -/
  | inside
  deriving DecidableEq

/-- The monitor that objects to whatever begins a declaration. -/
def calm : Monitor Calm where
  inner := .inside
  step
    | .inside, _, _ => some .inside
    | .afterFunc, _, .leftParen => some .plain
    | .afterFunc, _, _ | .plain, .listed, _ => none
    | _, _, .kwPackage | _, _, .kwConst | _, _, .kwVar | _, _, .kwType
    | _, _, .colon => none
    | _, _, .kwFunc => some .afterFunc
    | _, _, .comma => some .listed
    | _, _, _ => some .plain

/-- Nonterminals whose phrases have no declaration or label outside of brackets. -/
def Nonterminal.isCalm : Nonterminal → Bool
  | .file | .packageClause | .constDecl | .varDecl | .functionDecl | .typeDecl
  | .statements | .statement | .labeledStmt | .emptyLabeledStmt | .expressionCase | .defaultCase
  | .typeCase | .commCase | .keyedElement | .moreElements | .moreItems | .moreStatements
  | .moreExpressionCases | .moreTypeCases | .moreCommCases | .text => false
  | _ => true

def calmTable : Monitor.Table Calm
  | _, _, .inside => some [.inside]
  | n, _, .afterFunc => if n = .params then some [.plain] else none
  | n, _, .plain | n, _, .listed => if n.isCalm then some [.plain] else none

theorem calm_closed : calm.Closed calmTable :=
  Monitor.closed_of_isClosed [.plain, .afterFunc, .listed, .inside]
    (fun q => by cases q <;> decide) (by decide +kernel)

/-! ## Declarations -/

/-- The items that lexemes outside of brackets declare, those aside that introduce no names. There
is no answer where this takes more than a glance. -/
def declared : List Lexeme → Option (List Item)
  | [] => some []
  | l :: ls =>
    match l.kind with
    | .kwPackage =>
      match ls with
      | [] => none
      | name :: _ =>
        if name.terminal = .identifier then
          (declared ls).map (.package (String.ofList name.text) :: ·)
        else none
    | .kwType =>
      match ls with
      | name :: t :: _ =>
        if name.terminal = .identifier ∧ t.kind = .kwStruct then
          (declared ls).map (.types [.definition (String.ofList name.text) [] .struct] :: ·)
        else none
      | _ => none
    | .kwVar =>
      match ls with
      | [] => none
      | name :: _ =>
        if name.terminal = .identifier ∧ name.text = ['_'] then declared ls else none
    | .kwFunc =>
      match ls with
      | [] => none
      | l' :: _ =>
        if l'.terminal = .leftParen then declared ls
        else if l'.terminal = .identifier then
          (declared ls).map (.func (String.ofList l'.text) :: ·)
        else none
    | .kwConst | .colon | .comma => none
    | _ => declared ls

def Terminal.isOrdinary : Terminal → Bool
  | .kwPackage | .kwType | .kwVar | .kwFunc | .kwConst | .colon | .comma => false
  | _ => true

theorem declared_cons {l : Lexeme} (h : l.kind.isOrdinary = true) (ls : List Lexeme) :
    declared (l :: ls) = declared ls := by
  rw [declared.eq_def]
  dsimp only
  split <;> simp_all [Terminal.isOrdinary]

theorem declared_separator {l : Lexeme} (h : l.kind = .colon ∨ l.kind = .comma)
    (ls : List Lexeme) : declared (l :: ls) = none := by
  rw [declared.eq_def]
  rcases h with h | h <;> simp only [h]

theorem declared_const {l : Lexeme} (h : l.kind = .kwConst) (ls : List Lexeme) :
    declared (l :: ls) = none := by
  rw [declared.eq_def]
  simp only [h]

theorem declared_func {l : Lexeme} (h : l.kind = .kwFunc) (l' : Lexeme) (ls : List Lexeme) :
    declared (l :: l' :: ls) =
      if l'.terminal = .leftParen then declared (l' :: ls)
      else if l'.terminal = .identifier then
        (declared (l' :: ls)).map (.func (String.ofList l'.text) :: ·)
      else none := by
  rw [declared.eq_def]
  simp only [h]

theorem declared_package {l : Lexeme} (h : l.kind = .kwPackage) (l' : Lexeme) (ls : List Lexeme) :
    declared (l :: l' :: ls) =
      if l'.terminal = .identifier then
        (declared (l' :: ls)).map (.package (String.ofList l'.text) :: ·)
      else none := by
  rw [declared.eq_def]
  simp only [h]

theorem declared_var {l : Lexeme} (h : l.kind = .kwVar) (l' : Lexeme) (ls : List Lexeme) :
    declared (l :: l' :: ls) =
      if l'.terminal = .identifier ∧ l'.text = ['_'] then declared (l' :: ls) else none := by
  rw [declared.eq_def]
  simp only [h]

theorem declared_struct {l name t : Lexeme} (h : l.kind = .kwType)
    (hname : name.terminal = .identifier) (ht : t.kind = .kwStruct) (ls : List Lexeme) :
    declared (l :: name :: t :: ls) = (declared (name :: t :: ls)).map
      (.types [.definition (String.ofList name.text) [] .struct] :: ·) := by
  rw [declared.eq_def]
  simp only [h, hname, ht, and_self, if_true]

theorem declared_type {l : Lexeme} (h : l.kind = .kwType) {ls : List Lexeme} {items : List Item}
    (hdeclared : declared (l :: ls) = some items) : ∃ name t ls', ls = name :: t :: ls' ∧
      name.terminal = .identifier ∧ t.kind = .kwStruct ∧ (declared ls).map
        (.types [.definition (String.ofList name.text) [] .struct] :: ·) = some items := by
  rw [declared.eq_def] at hdeclared
  simp only [h] at hdeclared
  split at hdeclared
  · next name t ls' =>
    split at hdeclared
    · next hstruct => exact ⟨name, t, ls', rfl, hstruct.1, hstruct.2, hdeclared⟩
    · cases hdeclared
  · cases hdeclared

theorem Lexeme.Matches.isOrdinary {l : Lexeme} {place : Place} {t : Terminal}
    (h : l.Matches place t) (hplace : place ≠ .listed) (ht : t.isOrdinary = true) :
    l.kind.isOrdinary = true := by
  rcases h.cases with heq | ⟨-, -, hadmits⟩
  · rw [heq, ht]
  · unfold Place.admits at hadmits
    split at hadmits <;> first | contradiction | simp_all [Terminal.isOrdinary]

theorem Lexeme.Matches.kind_eq {l : Lexeme} {place : Place} {t : Terminal}
    (h : l.Matches place t) (ht : t ≠ .identifier) : l.kind = t :=
  h.cases.resolve_right fun h => ht h.2.1

theorem Lexeme.kind_of_terminal {l : Lexeme} {t : Terminal} (h : l.terminal = t)
    (ht : t ≠ .identifier) : l.kind = t := by
  rw [kind, keyword?, if_neg (h ▸ ht), Option.getD_none, h]

/-- What has been read but may yet turn out to begin a declaration. -/
inductive Pending : Calm → List Lexeme → Prop
  | plain : Pending .plain []
  | afterFunc {l : Lexeme} : l.kind = .kwFunc → Pending .afterFunc [l]
  | listed {l : Lexeme} : l.kind = .comma → Pending .listed [l]

theorem calm_step_plain {place : Place} {t : Terminal} {q : Calm}
    (h : calm.step .plain place t = some q) : place ≠ .listed ∧
      (t.isOrdinary = true ∧ q = .plain ∨ t = .kwFunc ∧ q = .afterFunc ∨
        t = .comma ∧ q = .listed) := by
  simp only [calm] at h
  split at h <;> simp_all [Terminal.isOrdinary]

theorem calm_step_afterFunc {place : Place} {t : Terminal} {q : Calm}
    (h : calm.step .afterFunc place t = some q) : t = .leftParen ∧ q = .plain := by
  simp only [calm] at h
  split at h <;> simp_all

/-- The lexemes that are passed over declare nothing. -/
theorem declared_skip {q : Calm} {pending : List Lexeme} (hpending : Pending q pending)
    {l : Lexeme} (hl : l.terminal = .comment) {ls : List Lexeme} {items : List Item}
    (h : declared (pending ++ l :: ls) = some items) : declared (pending ++ ls) = some items := by
  have hkind := Lexeme.kind_of_terminal hl nofun
  cases hpending with
  | plain => rwa [List.nil_append, declared_cons (by rw [hkind]; rfl)] at h
  | afterFunc hfunc =>
    rw [List.cons_append, List.nil_append, declared_func hfunc, hl] at h
    cases h
  | listed hcomma =>
    rw [List.cons_append, declared_separator (.inr hcomma)] at h
    cases h

/-- What is pending and the lexemes yet to be read declare some items, while the monitor is in some
state. -/
inductive Leads (items : List Item) : List Calm → List Lexeme → Prop
  | outside {q : Calm} {pending ls : List Lexeme} : Pending q pending →
      declared (pending ++ outer 0 ls) = some items → Leads items [q] ls
  | inside {depth : Nat} {ls : List Lexeme} :
      declared (outer (depth + 1) ls) = some items →
      Leads items (.inside :: (List.replicate depth .inside ++ [.plain])) ls

namespace Leads

variable {ls ls' : List Lexeme} {items : List Item} {stack stack' : List Calm} {l : Lexeme}
  {place : Place} {t : Terminal}

theorem skip (h : Leads items stack (l :: ls))
    (hskip : l.terminal = .newline ∨ l.terminal = .comment) : Leads items stack ls := by
  cases h with
  | outside hpending h =>
    refine .outside hpending ?_
    rcases hskip with hl | hl
    · rwa [outer_newline hl] at h
    · rw [outer_inner (hl ▸ rfl)] at h
      exact declared_skip hpending hl h
  | inside h =>
    refine .inside ?_
    rcases hskip with hl | hl
    · rwa [outer_newline hl] at h
    · rwa [outer_inner (hl ▸ rfl)] at h

/-- Inside of brackets only brackets matter. -/
theorem read_inside {depth : Nat} (hmatch : l.Matches place t)
    (h : declared (outer (depth + 1) (l :: ls)) = some items)
    (hnext : calm.next (.inside :: (List.replicate depth .inside ++ [.plain])) place t =
      some stack') : Leads items stack' ls := by
  have hopens := hmatch.iff_terminal (P := Terminal.opens) (by decide)
  have hcloses := hmatch.iff_terminal (P := Terminal.closes) (by decide)
  rw [Monitor.next, ← hopens, ← hcloses] at hnext
  split at hnext
  · next ho =>
    cases hnext
    rw [outer_opens ho] at h
    exact @inside _ (depth + 1) _ h
  next ho =>
  split at hnext
  · next hc =>
    rw [outer_closes hc] at h
    cases depth with
    | zero => cases hnext; exact .outside .plain h
    | succ depth => cases hnext; exact .inside h
  · next hc =>
    cases hnext
    refine .inside ?_
    by_cases hl : l.terminal = .newline
    · rwa [outer_newline hl] at h
    · rwa [outer_inner (by simp [Terminal.isInner, hl, ho, hc])] at h

/-- The only bracket that may follow `func` opens a list of parameters. -/
theorem read_afterFunc {l' : Lexeme} (hfunc : l'.kind = .kwFunc) (hmatch : l.Matches place t)
    (h : declared ([l'] ++ outer 0 (l :: ls)) = some items)
    (hnext : calm.next [.afterFunc] place t = some stack') : Leads items stack' ls := by
  have hopens := hmatch.iff_terminal (P := Terminal.opens) (by decide)
  rw [Monitor.next, ← hopens] at hnext
  split at hnext
  · next ho =>
    obtain ⟨q', hstep, rfl⟩ := Option.map_eq_some_iff.mp hnext
    obtain ⟨rfl, rfl⟩ := calm_step_afterFunc hstep
    have hparen := hmatch.terminal_of_not_word (by decide)
    rw [outer_opens ho, if_pos rfl, List.cons_append, List.nil_append, List.cons_append,
      declared_func hfunc, if_pos hparen, List.nil_append,
      declared_cons (Lexeme.kind_of_terminal hparen (by decide) ▸ rfl)] at h
    exact @inside _ 0 _ h
  next ho =>
  split at hnext
  · cases hnext
  · obtain ⟨q', hstep, rfl⟩ := Option.map_eq_some_iff.mp hnext
    obtain ⟨rfl, rfl⟩ := calm_step_afterFunc hstep
    exact (ho (hopens ▸ rfl)).elim

theorem read_plain (hmatch : l.Matches place t)
    (h : declared (outer 0 (l :: ls)) = some items)
    (hnext : calm.next [.plain] place t = some stack') : Leads items stack' ls := by
  have hopens := hmatch.iff_terminal (P := Terminal.opens) (by decide)
  have hcloses := hmatch.iff_terminal (P := Terminal.closes) (by decide)
  rw [Monitor.next, ← hopens, ← hcloses] at hnext
  split at hnext
  · next ho =>
    obtain ⟨q', hstep, rfl⟩ := Option.map_eq_some_iff.mp hnext
    obtain ⟨hplace, ⟨ht, rfl⟩ | ⟨rfl, -⟩ | ⟨rfl, -⟩⟩ := calm_step_plain hstep
    · rw [outer_opens ho, if_pos rfl, List.cons_append, List.nil_append,
        declared_cons (hmatch.isOrdinary hplace ht)] at h
      exact @inside _ 0 _ h
    · exact absurd (hopens.symm.trans ho) (by decide)
    · exact absurd (hopens.symm.trans ho) (by decide)
  next ho =>
  split at hnext
  · cases hnext
  next hc =>
  obtain ⟨q', hstep, rfl⟩ := Option.map_eq_some_iff.mp hnext
  obtain ⟨hplace, hstep⟩ := calm_step_plain hstep
  by_cases hl : l.terminal = .newline
  · rw [outer_newline hl] at h
    have hkind := Lexeme.kind_of_terminal hl (by decide)
    rcases hstep with ⟨-, rfl⟩ | ⟨rfl, -⟩ | ⟨rfl, -⟩
    · exact .outside .plain h
    · exact absurd (hkind.symm.trans (hmatch.kind_eq (by decide))) (by decide)
    · exact absurd (hkind.symm.trans (hmatch.kind_eq (by decide))) (by decide)
  · rw [outer_inner (by simp [Terminal.isInner, hl, ho, hc]), if_pos rfl, List.cons_append,
      List.nil_append] at h
    rcases hstep with ⟨ht, rfl⟩ | ⟨rfl, rfl⟩ | ⟨rfl, rfl⟩
    · rw [declared_cons (hmatch.isOrdinary hplace ht)] at h
      exact .outside .plain h
    · exact .outside (.afterFunc (hmatch.kind_eq (by decide))) h
    · exact .outside (.listed (hmatch.kind_eq (by decide))) h

theorem read (h : Leads items stack (l :: ls)) (hmatch : l.Matches place t)
    (hnext : calm.next stack place t = some stack') : Leads items stack' ls := by
  cases h with
  | inside h => exact read_inside hmatch h hnext
  | outside hpending h =>
    cases hpending with
    | plain => exact read_plain hmatch h hnext
    | afterFunc hfunc => exact read_afterFunc hfunc hmatch h hnext
    | listed hcomma =>
      rw [List.cons_append, declared_separator (.inr hcomma)] at h
      cases h

theorem run (hrun : calm.Run stack ls stack') (h : Leads items stack (ls ++ ls')) :
    Leads items stack' ls' := by
  induction hrun with
  | nil => exact h
  | skip hskip _ ih => exact ih (h.skip hskip)
  | read hmatch hnext _ ih => exact ih (h.read hmatch hnext)

end Leads

/-- Symbols that a monitor reads without an objection make up a calm phrase. -/
def isCalm (symbols : List Symbol) (place : Place) : Bool :=
  calm.allows calmTable (· = [.plain]) symbols place [.plain]

/-- A calm phrase declares nothing: it is passed over unless there is no answer. -/
theorem declared_of_isCalm {symbols : List Symbol} {place : Place} {trees : List Tree}
    {ls rest : List Lexeme} {items : List Item} (h : Derives place symbols trees ls)
    (hcalm : isCalm symbols place = true)
    (hdeclared : declared (outer 0 (ls ++ rest)) = some items) :
    declared (outer 0 rest) = some items := by
  obtain ⟨stack', hrun, hends⟩ := Monitor.run_of_allows calm_closed h hcalm
  obtain rfl := of_decide_eq_true hends
  cases Leads.run hrun (.outside .plain hdeclared) with
  | outside hpending h => cases hpending; exact h

end Interposer.Source
