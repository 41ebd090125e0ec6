import Interposer.Proofs.Source.Reading

/-! Properties of all phrases of the grammar, found by looking at its productions one by one. A
monitor is an automaton that reads the terminals of a phrase. If a table tells for each nonterminal
in which states its phrases may end, and every production bears this out (`Closed`), then the table
is right about all texts (`run_of_allows`). -/

namespace Interposer.Source

def Terminal.opens : Terminal → Bool
  | .leftParen | .leftBracket | .leftBrace => true
  | _ => false

def Terminal.closes : Terminal → Bool
  | .rightParen | .rightBracket | .rightBrace => true
  | _ => false

/-- Inside of brackets a monitor starts anew, and after them it goes on from where it was. -/
structure Monitor (σ : Type) where
  /-- The state after an opening bracket. -/
  inner : σ
  /-- The state after a terminal, or after the brackets that it opens; there is none if the terminal
  must not stand here. -/
  step : σ → Place → Terminal → Option σ

namespace Monitor

variable {σ : Type} (M : Monitor σ)

/-- What a terminal does to the states inside and outside of the brackets that are open, the
innermost first. -/
def next : List σ → Place → Terminal → Option (List σ)
  | [], _, _ => none
  | q :: stack, place, t =>
    if t.opens then (M.step q place t).map fun q' => M.inner :: q' :: stack
    else if t.closes then (if stack.isEmpty then none else some stack)
    else (M.step q place t).map (· :: stack)

/-- A run of the monitor over lexemes that are taken for some terminals or passed over. -/
inductive Run : List σ → List Lexeme → List σ → Prop
  | nil {stack : List σ} : Run stack [] stack
  | skip {stack stack' : List σ} {l : Lexeme} {ls : List Lexeme} :
      l.terminal = .newline ∨ l.terminal = .comment → Run stack ls stack' →
      Run stack (l :: ls) stack'
  | read {stack stack₁ stack' : List σ} {place : Place} {t : Terminal} {l : Lexeme}
      {ls : List Lexeme} : l.Matches place t → M.next stack place t = some stack₁ →
      Run stack₁ ls stack' → Run stack (l :: ls) stack'

variable {M} {stack stack₁ stack' : List σ} {ls ls' : List Lexeme}

theorem Run.append (h : M.Run stack ls stack₁) (h' : M.Run stack₁ ls' stack') :
    M.Run stack (ls ++ ls') stack' := by
  induction h with
  | nil => exact h'
  | skip hskip _ ih => exact .skip hskip (ih h')
  | read hmatch hnext _ ih => exact .read hmatch hnext (ih h')

theorem run_of_extras {extras : List Tree} (h : Extras extras ls) (stack : List σ) :
    M.Run stack ls stack := by
  induction h with
  | nil => exact .nil
  | newline _ ih => exact .skip (.inl rfl) ih
  | comment _ _ ih => exact .skip (.inr rfl) ih

/-- What is outside of the open brackets makes no difference. -/
theorem next_append {place : Place} {t : Terminal} (h : M.next stack place t = some stack')
    (outer : List σ) : M.next (stack ++ outer) place t = some (stack' ++ outer) := by
  cases stack with
  | nil => cases h
  | cons q stack =>
    rw [List.cons_append, next]
    rw [next] at h
    split at h
    · next hopens =>
      obtain ⟨q', hstep, rfl⟩ := Option.map_eq_some_iff.mp h
      rw [if_pos hopens, hstep]
      rfl
    next hopens =>
    rw [if_neg hopens]
    split at h
    · next hcloses =>
      rw [if_pos hcloses]
      cases stack with
      | nil => cases h
      | cons q stack => cases h; rfl
    · next hcloses =>
      obtain ⟨q', hstep, rfl⟩ := Option.map_eq_some_iff.mp h
      rw [if_neg hcloses, hstep]
      rfl

theorem Run.frame (h : M.Run stack ls stack') (outer : List σ) :
    M.Run (stack ++ outer) ls (stack' ++ outer) := by
  induction h with
  | nil => exact .nil
  | skip hskip _ ih => exact .skip hskip ih
  | read hmatch hnext _ ih => exact .read hmatch (next_append hnext outer) ih

/-! ## Tables -/

/-- The states in which phrases of a nonterminal may end, given the one in which they begin; nothing
is said where there is no list. -/
abbrev Table (σ : Type) := Nonterminal → Place → σ → Option (List σ)

/-- Whether symbols can be read, and `goal` holds of what is reached, as far as the table knows. -/
def allows (M : Monitor σ) (table : Table σ) (goal : List σ → Bool) :
    List Symbol → Place → List σ → Bool
  | [], _, stack => goal stack
  | .terminal t :: rest, place, stack =>
    match M.next stack place t with
    | some stack => M.allows table goal rest (.after t) stack
    | none => false
  | .nonterminal _ :: _, _, [] => false
  | .nonterminal n :: rest, place, q :: stack =>
    match table n place q with
    | some qs => qs.all fun q' => M.allows table goal rest .other (q' :: stack)
    | none => false

/-- Every production bears the table out. -/
def Closed [DecidableEq σ] (M : Monitor σ) (table : Table σ) : Prop :=
  ∀ n place q qs, table n place q = some qs → ∀ way ∈ n.ways,
    M.allows table (fun stack => qs.any fun q' => stack = [q']) way (place.within n) [q] = true

/-- Phrases that a table allows are read as it says. -/
theorem run_of_allows [DecidableEq σ] {table : Table σ} (H : M.Closed table) {place : Place}
    {symbols : List Symbol} {trees : List Tree} (h : Derives place symbols trees ls)
    {goal : List σ → Bool} (hallows : M.allows table goal symbols place stack = true) :
    ∃ stack', M.Run stack ls stack' ∧ goal stack' = true := by
  induction h generalizing stack goal with
  | nil => exact ⟨stack, .nil, hallows⟩
  | @terminal place t _ _ _ _ _ _ _ hmatch _ hextras _ ih =>
    rw [allows] at hallows
    cases hnext : M.next stack place t with
    | none => rw [hnext] at hallows; cases hallows
    | some stack₁ =>
      rw [hnext] at hallows
      obtain ⟨stack', hrun, hgoal⟩ := ih hallows
      exact ⟨stack', .read hmatch hnext ((run_of_extras hextras stack₁).append hrun), hgoal⟩
  | @nonterminal place n way _ _ _ _ _ _ _ _ hway _ hextras _ ihinner ih =>
    cases stack with
    | nil => cases hallows
    | cons q stack =>
      rw [allows] at hallows
      cases htable : table n place q with
      | none => rw [htable] at hallows; cases hallows
      | some qs =>
        rw [htable] at hallows
        obtain ⟨stack₁, hinner, hends⟩ := ihinner (H n place q qs htable way hway)
        obtain ⟨q', hq', heq⟩ := List.any_eq_true.mp hends
        obtain rfl := of_decide_eq_true heq
        obtain ⟨stack', hrun, hgoal⟩ := ih (List.all_eq_true.mp hallows q' hq')
        refine ⟨stack', (hinner.frame stack).append ?_, hgoal⟩
        exact (run_of_extras hextras (q' :: stack)).append hrun

/-! ## Deciding whether a table is right -/

theorem mem_all (n : Nonterminal) : n ∈ Nonterminal.all := by
  refine List.mem_map.mpr ⟨n.ctorIdx, List.mem_range.mpr ?_, Nonterminal.ofNat_ctorIdx n⟩
  cases n <;> decide

def isClosed [DecidableEq σ] (M : Monitor σ) (table : Table σ) (states : List σ) : Bool :=
  Nonterminal.all.all fun n => [Place.operand, .listed, .other].all fun place => states.all fun q =>
    match table n place q with
    | none => true
    | some qs => n.ways.all fun way =>
      M.allows table (fun stack => qs.any fun q' => stack = [q']) way (place.within n) [q]

theorem closed_of_isClosed [DecidableEq σ] {table : Table σ} (states : List σ)
    (hstates : ∀ q, q ∈ states) (h : M.isClosed table states = true) : M.Closed table := by
  intro n place q qs htable way hway
  have hn := List.all_eq_true.mp h n (mem_all n)
  have hplace := List.all_eq_true.mp hn place (by cases place <;> decide)
  have hq := List.all_eq_true.mp hplace q (hstates q)
  rw [htable] at hq
  exact List.all_eq_true.mp hq way hway

end Monitor

end Interposer.Source
