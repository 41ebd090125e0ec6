import Interposer.Proofs.Source.Declared
import Interposer.Proofs.Source.Spelling

/-! What a text declares, put together from pieces whose lexemes are known (`Shows`). Nothing in
brackets counts, since phrases close the brackets that they open (`outer_of_derives`). -/

namespace Interposer.Source

variable {place : Place} {trees : List Tree} {cs cs' : List Char} {ls rest : List Lexeme}
  {items items' : List Item}

/-! ## Brackets -/

theorem outer_inside {l : Lexeme} (hopens : l.terminal.opens = false)
    (hcloses : l.terminal.closes = false) (depth : Nat) (ls : List Lexeme) :
    outer (depth + 1) (l :: ls) = outer (depth + 1) ls := by
  rw [outer, hopens, hcloses]
  simp

namespace Monitor

variable {σ : Type} {M : Monitor σ} {stack stack' : List σ}

/-- A run goes as deep into brackets as there are states besides the outermost one. -/
theorem Run.outer_append (h : M.Run stack ls stack') (hne : stack ≠ []) (rest : List Lexeme) :
    ∃ depth depth', stack.length = depth + 1 ∧ stack'.length = depth' + 1 ∧
      outer (depth + 1) (ls ++ rest) = outer (depth' + 1) rest := by
  induction h with
  | @nil stack =>
    obtain ⟨q, stack, rfl⟩ := List.exists_cons_of_ne_nil hne
    exact ⟨stack.length, stack.length, rfl, rfl, rfl⟩
  | @skip _ _ l _ hskip _ ih =>
    obtain ⟨depth, depth', hlength, hlength', heq⟩ := ih hne
    refine ⟨depth, depth', hlength, hlength', ?_⟩
    rw [List.cons_append, outer_inside, heq]
    all_goals rcases hskip with hl | hl <;> rw [hl] <;> rfl
  | @read stack stack₁ _ place t l ls hmatch hnext _ ih =>
    have hopens := hmatch.iff_terminal (P := Terminal.opens) (by decide)
    have hcloses := hmatch.iff_terminal (P := Terminal.closes) (by decide)
    obtain ⟨q, stack, rfl⟩ := List.exists_cons_of_ne_nil hne
    rw [next, ← hopens, ← hcloses] at hnext
    split at hnext
    · next ho =>
      obtain ⟨q', -, rfl⟩ := Option.map_eq_some_iff.mp hnext
      obtain ⟨depth, depth', hlength, hlength', heq⟩ := ih (List.cons_ne_nil _ _)
      obtain rfl : depth = stack.length + 1 := by simpa using hlength.symm
      refine ⟨stack.length, depth', rfl, hlength', ?_⟩
      rw [List.cons_append, outer_opens ho, if_neg (Nat.succ_ne_zero _), List.nil_append, heq]
    next ho =>
    split at hnext
    · next hc =>
      cases stack with
      | nil => cases hnext
      | cons q' stack =>
        cases hnext
        obtain ⟨depth, depth', hlength, hlength', heq⟩ := ih (List.cons_ne_nil _ _)
        obtain rfl : depth = stack.length := by simpa using hlength.symm
        refine ⟨stack.length + 1, depth', rfl, hlength', ?_⟩
        rw [List.cons_append, outer_closes hc]
        exact heq
    · next hc =>
      obtain ⟨q', -, rfl⟩ := Option.map_eq_some_iff.mp hnext
      obtain ⟨depth, depth', hlength, hlength', heq⟩ := ih (List.cons_ne_nil _ _)
      obtain rfl : depth = stack.length := by simpa using hlength.symm
      refine ⟨stack.length, depth', rfl, hlength', ?_⟩
      rw [List.cons_append, outer_inside (Bool.eq_false_iff.mpr ho) (Bool.eq_false_iff.mpr hc), heq]

end Monitor

theorem allows_inside (phrases : List Nonterminal) (place : Place) :
    calm.allows calmTable (· = [.inside]) (phrases.map .nonterminal) place [.inside] = true := by
  induction phrases generalizing place with
  | nil => rfl
  | cons n phrases ih =>
    rw [List.map_cons, Monitor.allows]
    simp [calmTable, ih]

/-- In brackets, phrases make no difference. -/
theorem outer_of_derives {phrases : List Nonterminal}
    (h : Derives place (phrases.map .nonterminal) trees ls) (depth : Nat) (rest : List Lexeme) :
    outer (depth + 1) (ls ++ rest) = outer (depth + 1) rest := by
  obtain ⟨stack, hrun, hends⟩ := Monitor.run_of_allows calm_closed h (allows_inside phrases place)
  obtain rfl := of_decide_eq_true hends
  obtain ⟨d, d', hlength, hlength', heq⟩ :=
    (hrun.frame (List.replicate depth .inside)).outer_append (List.cons_ne_nil _ _) rest
  obtain rfl : d = depth := by simpa using hlength.symm
  obtain rfl : d' = d := by simpa using hlength'.symm
  exact heq

theorem outer_of_extras (h : Extras trees ls) (depth : Nat) (rest : List Lexeme) :
    outer (depth + 1) (ls ++ rest) = outer (depth + 1) rest := by
  induction h with
  | nil => rfl
  | newline _ ih | comment _ _ ih => rw [List.cons_append, outer_inside rfl rfl, ih]

/-! ## Texts -/

/-- A text that declares some items, outside of brackets and before whatever follows. -/
def Shows (cs : List Char) (items : List Item) : Prop :=
  ∃ ls, Scans cs ls ∧ ∀ rest : List Lexeme,
    declared (outer 0 (ls ++ rest)) = (declared (outer 0 rest)).map (items ++ ·)

namespace Shows

theorem nil : Shows [] [] := ⟨[], .nil, fun rest => by simp⟩

theorem append (h : Shows cs items) (h' : Shows cs' items') (hfree : Free cs') :
    Shows (cs ++ cs') (items ++ items') := by
  obtain ⟨ls, hscans, hitems⟩ := h
  obtain ⟨ls', hscans', hitems'⟩ := h'
  refine ⟨ls ++ ls', hscans.append hscans' hfree, fun rest => ?_⟩
  rw [List.append_assoc, hitems, hitems', Option.map_map]
  exact congrArg (Option.map · _) (funext fun _ => (List.append_assoc ..).symm)

theorem space (h : Shows cs items) : Shows (' ' :: cs) items := by
  obtain ⟨ls, hscans, hitems⟩ := h
  exact ⟨ls, hscans.space (.inl rfl), hitems⟩

theorem newline (h : Shows cs items) : Shows ('\n' :: cs) items := by
  obtain ⟨ls, hscans, hitems⟩ := h
  exact ⟨_, hscans.newline, fun rest => by rw [List.cons_append, outer_newline rfl, hitems]⟩

/-- A token that declares nothing by itself. -/
theorem terminal {l : Lexeme} (hne : l.text ≠ []) (hline : ∀ c ∈ l.text, c ≠ '\n' ∧ c ≠ '\r')
    (hinner : l.terminal.isInner = true) (hkind : l.kind.isOrdinary = true)
    (hchunk : Chunk l.text [l] cs.head?) (h : Shows cs items) : Shows (l.text ++ cs) items := by
  obtain ⟨ls, hscans, hitems⟩ := h
  refine ⟨[l] ++ ls, .chunk hne hline hchunk hscans, fun rest => ?_⟩
  rw [List.append_assoc, List.singleton_append, outer_inner hinner, if_pos rfl,
    List.singleton_append, declared_cons hkind, hitems]

theorem operator {o : Char} {t : Terminal} (hline : o ≠ '\n' ∧ o ≠ '\r')
    (hinner : t.isInner = true) (hkind : (Lexeme.mk t [o]).kind.isOrdinary = true)
    (hchunk : Chunk [o] [⟨t, [o]⟩] cs.head?) (h : Shows cs items) : Shows (o :: cs) items :=
  terminal (l := ⟨t, [o]⟩) (List.cons_ne_nil o []) (by simpa using hline) hinner hkind hchunk h

theorem comment {text : List Char} (htext : ∀ c ∈ text, c ≠ '\n' ∧ c ≠ '\r' ∧ c ≠ '\x00')
    (h : Shows cs items) : Shows ('/' :: '/' :: text ++ '\n' :: cs) items := by
  have hline : ∀ c ∈ '/' :: '/' :: text, c ≠ '\n' ∧ c ≠ '\r' := by
    simpa using fun c hc => ⟨(htext c hc).1, (htext c hc).2.1⟩
  exact terminal (l := ⟨.comment, '/' :: '/' :: text⟩) (List.cons_ne_nil _ _) hline rfl rfl
    (chunk_comment fun c hc => ⟨(htext c hc).1, (htext c hc).2.2⟩) h.newline

end Shows

/-! ## Words -/

theorem IsWord.scans {w : List Char} (hw : IsWord w) : Scans w [⟨.identifier, w⟩] := by
  refine .of_chunk ?_ hw.not_break hw.chunk
  obtain ⟨c, cs, rfl, -⟩ := hw
  exact List.cons_ne_nil c cs

theorem IsName.isOrdinary {w : List Char} (hw : IsName w) :
    (Lexeme.mk .identifier w).kind.isOrdinary = true := by
  rw [Lexeme.kind, Lexeme.keyword?, if_pos rfl]
  cases hk : Lexer.keyword? w with
  | none => rfl
  | some k =>
    have hadmits := hw.admits k hk
    cases k <;> first | rfl | cases hadmits

theorem outer_word (w : List Char) (ls : List Lexeme) :
    outer 0 (⟨.identifier, w⟩ :: ls) = ⟨.identifier, w⟩ :: outer 0 ls := rfl

theorem kind_word {w : List Char} {t : Terminal} (hw : Lexer.keyword? w = some t) :
    (Lexeme.mk .identifier w).kind = t := by
  rw [Lexeme.kind, Lexeme.keyword?, if_pos rfl, hw]
  rfl

namespace Shows

theorem word {w : List Char} (hw : IsWord w)
    (hkind : (Lexeme.mk .identifier w).kind.isOrdinary = true) : Shows w [] :=
  ⟨_, hw.scans, fun rest => by
    rw [List.singleton_append, outer_word, declared_cons hkind]; simp⟩

theorem name {w : List Char} (hw : IsName w) : Shows w [] := word hw.isWord hw.isOrdinary

/-- A keyword and a name that make up a declaration. -/
theorem words {keyword w : List Char} (hkeyword : IsWord keyword) (hw : IsName w)
    (hitems : ∀ ls, declared (⟨.identifier, keyword⟩ :: ⟨.identifier, w⟩ :: ls) =
      (declared (⟨.identifier, w⟩ :: ls)).map (items ++ ·)) :
    Shows (keyword ++ ' ' :: w) items := by
  refine ⟨_, hkeyword.scans.append (hw.isWord.scans.space (.inl rfl)) (free_cons rfl _),
    fun rest => ?_⟩
  have houter : outer 0 ([⟨.identifier, keyword⟩] ++ [⟨.identifier, w⟩] ++ rest : List Lexeme) =
    ⟨.identifier, keyword⟩ :: ⟨.identifier, w⟩ :: outer 0 rest := rfl
  rw [houter, hitems, declared_cons hw.isOrdinary]

theorem package {w : List Char} (hw : IsName w) :
    Shows ("package".toList ++ ' ' :: w) [.package (String.ofList w)] :=
  words (.of_all (by decide)) hw fun ls => by
    rw [declared_package (kind_word (by decide)), if_pos rfl]
    rfl

theorem funcName {w : List Char} (hw : IsName w) :
    Shows ("func".toList ++ ' ' :: w) [.func (String.ofList w)] :=
  words (.of_all (by decide)) hw fun ls => by
    rw [declared_func (kind_word (by decide)), if_neg nofun, if_pos rfl]
    rfl

theorem blankVar : Shows ("var".toList ++ ' ' :: ['_']) [] :=
  words (.of_all (by decide)) (.of_all (by decide) (by decide)) fun ls => by
    rw [declared_var (kind_word (by decide)), if_pos ⟨rfl, rfl⟩]
    simp

theorem structType {w : List Char} (hw : IsName w) :
    Shows ("type".toList ++ ' ' :: (w ++ ' ' :: "struct".toList))
      [.types [.definition (String.ofList w) [] .struct]] := by
  have hstruct : IsWord "struct".toList := .of_all (by decide)
  have htype : IsWord "type".toList := .of_all (by decide)
  refine ⟨_, htype.scans.append ((hw.isWord.scans.append (hstruct.scans.space (.inl rfl))
    (free_cons rfl _)).space (.inl rfl)) (free_cons rfl _), fun rest => ?_⟩
  have houter : outer 0 ([⟨.identifier, "type".toList⟩] ++
      ([⟨.identifier, w⟩] ++ [⟨.identifier, "struct".toList⟩]) ++ rest : List Lexeme) =
      ⟨.identifier, "type".toList⟩ :: ⟨.identifier, w⟩ :: ⟨.identifier, "struct".toList⟩ ::
        outer 0 rest := rfl
  have hkind : (Lexeme.mk .identifier "struct".toList).kind = .kwStruct := kind_word (by decide)
  rw [houter, declared_struct (kind_word (by decide)) rfl hkind, declared_cons hw.isOrdinary,
    declared_cons (hkind ▸ rfl)]
  rfl

end Shows

/-! ## Texts in brackets -/

/-- A text that makes no difference in brackets, given that they are closed right after it. -/
def Enclosed (b : Brackets) (cs : List Char) : Prop :=
  ∃ ls, (∀ cs' ls', Scans (b.closing.text ++ cs') ls' →
    Scans (cs ++ (b.closing.text ++ cs')) (ls ++ ls')) ∧
      ∀ rest : List Lexeme, outer 1 (ls ++ rest) = outer 1 rest

theorem Spelled.enclosed (phrases : List Nonterminal) (b : Brackets)
    (h : Spelled place (phrases.map .nonterminal) cs) : Enclosed b cs := by
  obtain ⟨extras, els, trees, ls, hscans, hextras, hderives⟩ := h
  have hfree : ∀ cs', Free (b.closing.text ++ cs') := by cases b <;> exact free_cons rfl
  refine ⟨els ++ ls, fun cs' ls' h => hscans.append h (hfree cs'), fun rest => ?_⟩
  rw [List.append_assoc, outer_of_extras hextras 0, outer_of_derives hderives 0]

theorem Fills.enclosed {b : Brackets} {n : Nonterminal} (h : Fills b n cs) : Enclosed b cs := by
  obtain ⟨phrases, -, h⟩ := h
  exact h.enclosed phrases b

theorem enclosed_number (n : Nat) : Enclosed .brackets (toString n).toList := by
  have hdigits := not_break_number n
  exact ⟨_, fun cs' ls' h => .chunk hdigits.1 hdigits.2 (chunk_number n) h,
    fun rest => outer_inside rfl rfl 0 rest⟩

namespace Shows

/-- What is in brackets does not show. -/
theorem exists_outer_wrap {b : Brackets} (h : Enclosed b cs) :
    ∃ ls, (∀ cs' ls', Scans cs' ls' → Scans (b.wrap cs ++ cs') (ls ++ ls')) ∧
      ∀ rest : List Lexeme, outer 0 (ls ++ rest) = b.opening :: outer 0 rest := by
  obtain ⟨ls, hscans, houter⟩ := h
  refine ⟨b.opening :: (ls ++ [b.closing]), fun cs' ls' h => ?_, fun rest => ?_⟩
  · have hwhole := Scans.operator b.opening_mem (hscans _ _ (.operator b.closing_mem h))
    simpa [Brackets.wrap] using hwhole
  have hopens : b.opening.terminal.opens = true := by cases b <;> rfl
  have hcloses : b.closing.terminal.closes = true := by cases b <;> rfl
  rw [List.cons_append, outer_opens hopens, if_pos rfl, List.append_assoc, houter,
    List.singleton_append, List.singleton_append, outer_closes hcloses]

theorem wrap_append {b : Brackets} (h : Enclosed b cs) (h' : Shows cs' items) :
    Shows (b.wrap cs ++ cs') items := by
  obtain ⟨ls, hscans, houter⟩ := exists_outer_wrap h
  obtain ⟨ls', hscans', hitems⟩ := h'
  refine ⟨ls ++ ls', hscans _ _ hscans', fun rest => ?_⟩
  have hordinary : b.opening.kind.isOrdinary = true := by cases b <;> rfl
  rw [List.append_assoc, houter, declared_cons hordinary, hitems]

theorem wrap {b : Brackets} (h : Enclosed b cs) : Shows (b.wrap cs) [] := by
  simpa using wrap_append h nil

/-- A list of parameters right after the keyword: no name is declared. -/
theorem func_wrap (h : Enclosed .parens cs) {blank : List Char}
    (hblank : blank = [] ∨ blank = [' ']) :
    Shows ("func".toList ++ (blank ++ Brackets.parens.wrap cs)) [] := by
  obtain ⟨ls, hscans, houter⟩ := exists_outer_wrap h
  have hwrap : Scans (Brackets.parens.wrap cs) ls := by simpa using hscans [] [] .nil
  have hscansBlank : Scans (blank ++ Brackets.parens.wrap cs) ls ∧
      Free (blank ++ Brackets.parens.wrap cs) := by
    rcases hblank with rfl | rfl
    · exact ⟨hwrap, Brackets.free_wrap _ _⟩
    · exact ⟨hwrap.space (.inl rfl), free_cons rfl _⟩
  have hfunc : IsWord "func".toList := .of_all (by decide)
  refine ⟨_, hfunc.scans.append hscansBlank.1 hscansBlank.2, fun rest => ?_⟩
  rw [List.append_assoc, List.singleton_append, outer_word, houter,
    declared_func (kind_word (by decide)), if_pos (by rfl), declared_cons (by rfl)]
  simp

end Shows

end Interposer.Source
