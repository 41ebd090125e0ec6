import Interposer.Proofs.Source.Scanning

/-! Texts that are written as the grammar has it. A text that spells symbols has a reading as them,
wherever it stands (`Spelled`). Longer texts are put together from shorter ones, a symbol at a
time. -/

namespace Interposer.Source

/-! ## Joining phrases -/

/-- The place after some symbols. -/
def Place.through : Place → List Symbol → Place
  | place, [] => place
  | _, .terminal t :: rest => (after t).through rest
  | _, .nonterminal _ :: rest => other.through rest

variable {place place' : Place} {symbols symbols' way : List Symbol} {trees trees' : List Tree}
  {cs cs' : List Char} {ls ls' els : List Lexeme} {n : Nonterminal} {t : Terminal}

theorem Extras.append (h : Extras trees ls) (h' : Extras trees' ls') :
    Extras (trees ++ trees') (ls ++ ls') := by
  induction h with
  | nil => exact h'
  | newline _ ih => exact .newline ih
  | comment hleaf _ ih => exact .comment hleaf ih

theorem Derives.append {extras : List Tree} (h : Derives place symbols trees ls)
    (hne : symbols ≠ []) (hextras : Extras extras els)
    (h' : Derives (place.through symbols) symbols' trees' ls') :
    Derives place (symbols ++ symbols') (trees ++ (extras ++ trees')) (ls ++ (els ++ ls')) := by
  induction h with
  | nil => exact absurd rfl hne
  | @terminal _ _ _ _ rest _ _ _ _ hmatch hleaf hextras' h ih =>
    cases rest with
    | nil =>
      cases h
      simpa using Derives.terminal hmatch hleaf (hextras'.append hextras) h'
    | cons x rest =>
      simpa using Derives.terminal hmatch hleaf hextras' (ih (List.cons_ne_nil x rest) h')
  | @nonterminal _ _ _ rest _ _ _ _ _ _ _ hway hinner hextras' h _ ih =>
    cases rest with
    | nil =>
      cases h
      simpa using Derives.nonterminal hway hinner (hextras'.append hextras) h'
    | cons x rest =>
      simpa using Derives.nonterminal hway hinner hextras' (ih (List.cons_ne_nil x rest) h')

/-- Where fewer keywords may be identifiers there is less to read. -/
def Place.rank : Place → Nat
  | operand => 0
  | other => 1
  | listed => 2

theorem Place.admits_mono (h : place.rank ≤ place'.rank) (ht : place.admits t = true) :
    place'.admits t = true := by
  cases place' with
  | listed => cases t <;> rfl
  | other =>
    cases place with
    | listed => exact absurd h (by decide)
    | other => exact ht
    | operand => cases t <;> first | rfl | cases ht
  | operand => cases place <;> first | exact ht | exact absurd h (by decide)

theorem Place.within_mono (h : place.rank ≤ place'.rank) (n : Nonterminal) :
    (place.within n).rank ≤ (place'.within n).rank := by
  have hcases : (∀ place : Place, place.within n = .operand) ∨
      ∀ place : Place, place.within n = if place = .listed then .other else place := by
    cases n <;> first | exact .inl fun _ => rfl | exact .inr fun _ => rfl
  rcases hcases with hn | hn
  · exact Nat.le_of_eq (by rw [hn, hn])
  · rw [hn, hn]
    cases place <;> cases place' <;> first | decide | exact absurd h (by decide)

theorem Derives.mono (h : Derives place symbols trees ls) (hplace : place.rank ≤ place'.rank) :
    Derives place' symbols trees ls := by
  induction h generalizing place' with
  | nil => exact .nil
  | terminal hmatch hleaf hextras h =>
    refine .terminal ?_ hleaf hextras h
    unfold Lexeme.Matches at hmatch ⊢
    split at hmatch
    · exact hmatch.imp_right fun ⟨ht, hadmits⟩ => ⟨ht, Place.admits_mono hplace hadmits⟩
    · exact hmatch
  | nonterminal hway _ hextras h ih =>
    exact .nonterminal hway (ih (Place.within_mono hplace _)) hextras h

/-! ## Spelled texts -/

/-- Lexemes of a text that can be read as some symbols, after what may stand before these. -/
def Spelled (place : Place) (symbols : List Symbol) (cs : List Char) : Prop :=
  ∃ extras els trees ls, Scans cs (els ++ ls) ∧ Extras extras els ∧ Derives place symbols trees ls

namespace Spelled

theorem nil : Spelled place [] [] := ⟨[], [], [], [], .nil, .nil, .nil⟩

theorem mono (h : Spelled place symbols cs) (hplace : place.rank ≤ place'.rank) :
    Spelled place' symbols cs := by
  obtain ⟨extras, els, trees, ls, hscans, hextras, hderives⟩ := h
  exact ⟨extras, els, trees, ls, hscans, hextras, hderives.mono hplace⟩

theorem append (h : Spelled place symbols cs)
    (h' : Spelled (place.through symbols) symbols' cs') (hfree : Free cs') :
    Spelled place (symbols ++ symbols') (cs ++ cs') := by
  obtain ⟨extras, els, trees, ls, hscans, hextras, hderives⟩ := h
  obtain ⟨extras', els', trees', ls', hscans', hextras', hderives'⟩ := h'
  have hall := hscans.append hscans' hfree
  by_cases hempty : symbols = []
  · subst hempty
    cases hderives
    exact ⟨extras ++ extras', els ++ els', trees', ls', by simpa using hall,
      hextras.append hextras', hderives'⟩
  · exact ⟨extras, els, _, _, by simpa using hall, hextras,
      hderives.append hempty hextras' hderives'⟩

/-- A way to write a nonterminal down. -/
theorem of_way (way : List Symbol) (hway : way ∈ n.ways) (h : Spelled (place.within n) way cs) :
    Spelled place [.nonterminal n] cs := by
  obtain ⟨extras, els, trees, ls, hscans, hextras, hderives⟩ := h
  have hphrase : Derives place [.nonterminal n] [.mk (.nonterminal n) default trees] ls := by
    simpa using Derives.nonterminal hway hderives .nil .nil
  exact ⟨extras, els, _, ls, hscans, hextras, hphrase⟩

theorem space {c : Char} (hc : c = ' ' ∨ c = '\t') (h : Spelled place symbols cs) :
    Spelled place symbols (c :: cs) := by
  obtain ⟨extras, els, trees, ls, hscans, h⟩ := h
  exact ⟨extras, els, trees, ls, hscans.space hc, h⟩

/-- An end of a line that ends nothing else. -/
theorem newline (h : Spelled place symbols cs) : Spelled place symbols ('\n' :: cs) := by
  obtain ⟨extras, els, trees, ls, hscans, hextras, hderives⟩ := h
  exact ⟨extras, _ :: els, trees, ls, hscans.newline, hextras.newline, hderives⟩

/-- An end of a line that the grammar asks for. -/
theorem terminator (h : Spelled .other symbols cs) :
    Spelled place (.terminal .newline :: symbols) ('\n' :: cs) := by
  obtain ⟨extras, els, trees, ls, hscans, hextras, hderives⟩ := h
  have hleaf : (Tree.mk (.terminal .newline) default []).IsLeaf .newline ['\n'] :=
    ⟨default, rfl, fun h => absurd rfl h⟩
  have hphrase : Derives place (.terminal .newline :: symbols) _
      (⟨.newline, ['\n']⟩ :: (els ++ ls)) := .terminal rfl hleaf hextras hderives
  exact ⟨[], [], _, _, hscans.newline, .nil, hphrase⟩

/-- A tree for a lexeme. -/
theorem exists_leaf (t : Terminal) (text : List Char) : ∃ leaf : Tree, leaf.IsLeaf t text := by
  let start : Cursor := ⟨text, 0, 0, 0⟩
  let stop : Cursor := ⟨[], text.length, 0, 0⟩
  refine ⟨_, ⟨start, start, stop, 0, 0, 0, 0, false, false⟩, rfl, fun _ => ?_⟩
  simp [Cursor.textTo, start, stop]

/-- A comment on a line of its own. -/
theorem comment {text : List Char} (htext : ∀ c ∈ text, c ≠ '\n' ∧ c ≠ '\r' ∧ c ≠ '\x00')
    (h : Spelled place symbols cs) :
    Spelled place symbols ('/' :: '/' :: text ++ '\n' :: cs) := by
  obtain ⟨extras, els, trees, ls, hscans, hextras, hderives⟩ := h
  obtain ⟨leaf, hleaf⟩ := exists_leaf .comment ('/' :: '/' :: text)
  exact ⟨leaf :: extras, _ :: _ :: els, trees, ls, hscans.comment htext,
    .comment hleaf hextras.newline, hderives⟩

theorem newlines (hcs : ∀ c ∈ cs, c = '\n') (place : Place) : Spelled place [] cs := by
  induction cs with
  | nil => exact nil
  | cons c cs ih =>
    obtain ⟨rfl, hrest⟩ := List.forall_mem_cons.mp hcs
    exact (ih hrest).newline

/-- Ends of lines after a phrase. -/
theorem append_newlines (h : Spelled place symbols cs) (hcs' : ∀ c ∈ cs', c = '\n') :
    Spelled place symbols (cs ++ cs') := by
  have hfree : Free cs' := by
    intro c hc
    rw [hcs' c (List.mem_of_mem_head? hc)]
    rfl
  simpa using h.append (newlines hcs' _) hfree

theorem indent (h : Spelled place symbols cs) (atStart : Bool) :
    Spelled place symbols (indented atStart cs) := by
  obtain ⟨extras, els, trees, ls, hscans, h⟩ := h
  exact ⟨extras, els, trees, ls, hscans.indent atStart, h⟩

/-! ## Terminals -/

theorem terminal {l : Lexeme} (hne : l.text ≠ [])
    (hline : ∀ c ∈ l.text, c ≠ '\n' ∧ c ≠ '\r') (hchunk : Chunk l.text [l] cs.head?)
    (hmatch : l.Matches place t) (h : Spelled (.after t) symbols cs) :
    Spelled place (.terminal t :: symbols) (l.text ++ cs) := by
  obtain ⟨extras, els, trees, ls, hscans, hextras, hderives⟩ := h
  obtain ⟨leaf, hleaf⟩ := exists_leaf t l.text
  have hphrase := Derives.terminal hmatch hleaf hextras hderives
  have hall : Scans (l.text ++ cs) ([l] ++ (els ++ ls)) := .chunk hne hline hchunk hscans
  exact ⟨[], [], _, _, hall, .nil, hphrase⟩

/-- Operators that need not be told apart from longer ones. -/
theorem operator {o : List Char} (ho : (o, t) ∈ fullOperators) (h : Spelled (.after t) symbols cs) :
    Spelled place (.terminal t :: symbols) (o ++ cs) := by
  have hoperators : ∀ p ∈ fullOperators, p.1 ≠ [] ∧ (∀ c ∈ p.1, c ≠ '\n' ∧ c ≠ '\r') ∧
      p.2 ≠ .identifier := by simp [fullOperators]
  obtain ⟨hne, hline, hword⟩ := hoperators _ ho
  exact terminal (l := ⟨t, o⟩) hne hline (chunk_fullOperator ho) (by
    rw [Lexeme.Matches, Lexeme.keyword?, if_neg hword]) h

/-- An operator of one character, given what comes next. -/
theorem operator_char {o : Char} (hline : o ≠ '\n' ∧ o ≠ '\r') (hword : t ≠ .identifier)
    (hchunk : Chunk [o] [⟨t, [o]⟩] cs.head?) (h : Spelled (.after t) symbols cs) :
    Spelled place (.terminal t :: symbols) (o :: cs) :=
  terminal (l := ⟨t, [o]⟩) (List.cons_ne_nil o []) (by simpa using hline) hchunk (by
    rw [Lexeme.Matches, Lexeme.keyword?, if_neg hword]) h

end Spelled

theorem IsWord.not_break {w : List Char} (h : IsWord w) : ∀ c ∈ w, c ≠ '\n' ∧ c ≠ '\r' := by
  obtain ⟨c, cs, rfl, hstart, hall⟩ := h
  refine List.forall_mem_cons.mpr ⟨⟨?_, ?_⟩, fun c' hc' => ⟨?_, ?_⟩⟩
  · rintro rfl; cases hstart
  · rintro rfl; cases hstart
  · rintro rfl; exact nomatch hall _ hc'
  · rintro rfl; exact nomatch hall _ hc'

theorem free_nil : Free [] := nofun

theorem free_cons {c : Char} (hc : Text.isWordChar c = false) (cs : List Char) :
    Free (c :: cs) := by
  rintro c' hc'
  cases hc'
  exact hc

theorem free_flatten {items : List (List Char)} (h : ∀ cs ∈ items, Free cs) :
    Free items.flatten := by
  induction items with
  | nil => exact free_nil
  | cons cs items ih =>
    obtain ⟨hcs, hrest⟩ := List.forall_mem_cons.mp h
    cases cs with
    | nil => exact ih hrest
    | cons c cs => exact hcs

/-- A word that may be an identifier, at least where no operand can begin. -/
structure IsName (w : List Char) : Prop where
  isWord : IsWord w
  admits : ∀ k, Lexer.keyword? w = some k → Place.other.admits k = true

theorem IsName.of_all {w : List Char}
    (h : (w.head?.any Text.isWordStart && w.tail.all Text.isWordChar) = true)
    (hadmits : (Lexer.keyword? w).all Place.other.admits = true) : IsName w :=
  ⟨.of_all h, fun k hk => by rwa [hk] at hadmits⟩

theorem IsName.isEmpty_eq_false {s : String} (h : IsName s.toList) : s.isEmpty = false := by
  obtain ⟨c, cs, hcs, -⟩ := h.isWord
  refine Bool.eq_false_iff.mpr fun hempty => ?_
  rw [String.isEmpty_iff.mp hempty] at hcs
  cases hcs

namespace Spelled

theorem word {w : List Char} (hw : IsWord w) (hmatch : Lexeme.Matches ⟨.identifier, w⟩ place t)
    (h : Spelled (.after t) symbols cs) (hfree : Free cs) :
    Spelled place (.terminal t :: symbols) (w ++ cs) := by
  have hne : w ≠ [] := by
    obtain ⟨c, cs, rfl, -⟩ := hw
    exact List.cons_ne_nil c cs
  exact terminal (l := ⟨.identifier, w⟩) hne hw.not_break (hw.chunk.of_none hfree) hmatch h

theorem keyword {w : List Char} (hword : IsWord w) (hw : Lexer.keyword? w = some t)
    (h : Spelled (.after t) symbols cs) (hfree : Free cs) :
    Spelled place (.terminal t :: symbols) (w ++ cs) := by
  refine word hword ?_ h hfree
  rw [Lexeme.Matches, Lexeme.keyword?, if_pos rfl, hw]
  exact .inl rfl

theorem identifier {w : List Char} (hw : IsWord w)
    (hadmits : ∀ k, Lexer.keyword? w = some k → place.admits k = true)
    (h : Spelled .other symbols cs) (hfree : Free cs) :
    Spelled place (.terminal .identifier :: symbols) (w ++ cs) := by
  refine word hw ?_ h hfree
  rw [Lexeme.Matches, Lexeme.keyword?, if_pos rfl]
  cases hk : Lexer.keyword? w with
  | none => exact rfl
  | some k => exact .inr ⟨rfl, hadmits k hk⟩

/-- A name where no operand can begin. -/
theorem name {w : List Char} (hw : IsName w) (hplace : Place.other.rank ≤ place.rank)
    (h : Spelled .other symbols cs) (hfree : Free cs) :
    Spelled place (.terminal .identifier :: symbols) (w ++ cs) :=
  identifier hw.isWord (fun k hk => Place.admits_mono hplace (hw.admits k hk)) h hfree

/-- A name is an expression, also if it is the word of a keyword that stands for a value. -/
theorem name_expression {w : List Char} (hw : IsName w) :
    Spelled place [.nonterminal .expression] w := by
  have hsoft : ∀ k, Place.other.admits k = true →
      k = .underscore ∨ [.terminal k] ∈ Nonterminal.expression.ways := by
    intro k hk
    cases k <;> first | exact .inl rfl | exact .inr (by decide) | exact absurd hk (by decide)
  rw [← List.append_nil w]
  cases hk : Lexer.keyword? w with
  | none =>
    refine of_way [.terminal .identifier] (by decide) (word hw.isWord ?_ nil free_nil)
    rw [Lexeme.Matches, Lexeme.keyword?, if_pos rfl, hk]
  | some k =>
    rcases hsoft k (hw.admits k hk) with rfl | hway
    · refine of_way [.terminal .identifier] (by decide) (word hw.isWord ?_ nil free_nil)
      rw [Lexeme.Matches, Lexeme.keyword?, if_pos rfl, hk]
      exact .inr ⟨rfl, rfl⟩
    · exact of_way _ hway (keyword hw.isWord hk nil free_nil)

/-- A number in brackets is an expression. -/
theorem number (n : Nat) (h : Spelled .other symbols (']' :: cs)) :
    Spelled place (.nonterminal .expression :: symbols) ((toString n).toList ++ ']' :: cs) := by
  obtain ⟨extras, els, trees, ls, hscans, hextras, hderives⟩ := h
  let l : Lexeme := ⟨.intLiteral, (toString n).toList⟩
  obtain ⟨leaf, hleaf⟩ := exists_leaf .intLiteral (toString n).toList
  have hmatch : l.Matches (place.within .expression) .intLiteral := rfl
  have hinner : Derives (place.within .expression) [.terminal .intLiteral] [leaf] [l] := by
    simpa using Derives.terminal hmatch hleaf .nil .nil
  have hway : [.terminal .intLiteral] ∈ Nonterminal.expression.ways := by decide
  have hphrase : Derives place (.nonterminal .expression :: symbols)
      (.mk (.nonterminal .expression) default [leaf] :: (extras ++ trees)) ([l] ++ (els ++ ls)) :=
    .nonterminal hway hinner hextras hderives
  have hdigits := not_break_number n
  have hall : Scans ((toString n).toList ++ ']' :: cs) ([l] ++ (els ++ ls)) :=
    .chunk hdigits.1 hdigits.2 (chunk_number n) hscans
  exact ⟨[], [], _, _, hall, .nil, hphrase⟩

/-! ## Strings -/

/-- A lexeme that is no word, as the terminal that it is. -/
theorem exists_derives {l : Lexeme} (hl : l.terminal ≠ .identifier) (place : Place) :
    ∃ trees, Derives place [.terminal l.terminal] trees [l] := by
  obtain ⟨leaf, hleaf⟩ := exists_leaf l.terminal l.text
  have hmatch : l.Matches place l.terminal := by
    rw [Lexeme.Matches, Lexeme.keyword?, if_neg hl]
  exact ⟨[leaf], by simpa using Derives.terminal hmatch hleaf .nil .nil⟩

theorem exists_derives_of_way (way : List Symbol) (hway : way ∈ n.ways)
    (h : ∃ trees, Derives (place.within n) way trees ls) :
    ∃ trees, Derives place [.nonterminal n] trees ls := by
  obtain ⟨trees, h⟩ := h
  exact ⟨[.mk (.nonterminal n) default trees], by simpa using Derives.nonterminal hway h .nil .nil⟩

theorem exists_derives_append {x : Symbol} {xs : List Symbol}
    (h : ∃ trees, Derives place [x] trees ls)
    (h' : ∃ trees, Derives (place.through [x]) xs trees ls') :
    ∃ trees, Derives place (x :: xs) trees (ls ++ ls') := by
  obtain ⟨trees, h⟩ := h
  obtain ⟨trees', h'⟩ := h'
  exact ⟨_, h.append (List.cons_ne_nil x []) .nil h'⟩

theorem exists_derives_quotedParts (hls : ∀ l ∈ ls, l.terminal.isInString = true) (hne : ls ≠ []) :
    ∀ place, ∃ trees, Derives place [.nonterminal .moreQuotedParts] trees ls := by
  induction ls with
  | nil => exact absurd rfl hne
  | cons l ls ih =>
    obtain ⟨hl, hrest⟩ := List.forall_mem_cons.mp hls
    have hfirst : ∀ place, ∃ trees, Derives place [.nonterminal .moreQuotedParts] trees [l] := by
      intro place
      refine exists_derives_of_way [.terminal l.terminal] ?_ (exists_derives ?_ _)
      all_goals
        cases hterminal : l.terminal <;> rw [hterminal] at hl <;>
          first | exact absurd hl (by decide) | decide
    intro place
    cases ls with
    | nil => exact hfirst place
    | cons l' ls =>
      exact exists_derives_of_way _ (by decide)
        (exists_derives_append (hfirst _) (ih hrest (List.cons_ne_nil l' ls) _))

/-- A quoted text is a string. -/
theorem quotedString (s : String) :
    Spelled place [.nonterminal .quotedString] (Text.quote s).toList := by
  obtain ⟨ls, hls, hchunk⟩ := chunk_quote s
  have hscans := Scans.of_chunk (by simp [Text.quote]) (not_break_quote s) (hchunk none)
  have hclose : ∀ place, ∃ trees, Derives place [.terminal .closeQuote] trees
      [⟨.closeQuote, ['"']⟩] := exists_derives (l := ⟨.closeQuote, ['"']⟩) (by decide)
  have hopen : ∀ place, ∃ trees, Derives place [.terminal .openQuote] trees
      [⟨.openQuote, ['"']⟩] := exists_derives (l := ⟨.openQuote, ['"']⟩) (by decide)
  have hphrase : ∃ trees, Derives place [.nonterminal .quotedString] trees
      (⟨.openQuote, ['"']⟩ :: (ls ++ [⟨.closeQuote, ['"']⟩])) := by
    by_cases hne : ls = []
    · subst hne
      exact exists_derives_of_way _ (by decide) (exists_derives_append (hopen _) (hclose _))
    · exact exists_derives_of_way _ (by decide) (exists_derives_append (hopen _)
        (exists_derives_append (exists_derives_quotedParts hls hne _) (hclose _)))
  obtain ⟨trees, hphrase⟩ := hphrase
  exact ⟨[], [], trees, _, hscans, .nil, hphrase⟩

end Spelled

/-! ## Lists -/

/-- Whether phrases of some kinds with commas before them are repeated as `more`. -/
def Repeats (more : Nonterminal) (phrases : List Nonterminal) : Prop :=
  [.nonterminal more, .nonterminal more] ∈ more.ways ∧
    ∀ n ∈ phrases, [.terminal .comma, .nonterminal n] ∈ more.ways

instance (more : Nonterminal) (phrases : List Nonterminal) : Decidable (Repeats more phrases) :=
  inferInstanceAs (Decidable (_ ∧ _))

/-- A text that is one of some phrases. -/
def OneOf (phrases : List Nonterminal) (place : Place) (cs : List Char) : Prop :=
  ∃ n ∈ phrases, Spelled place [.nonterminal n] cs

/-- The symbols of lists of phrases. -/
def lists (phrases : List Nonterminal) (more : Nonterminal) : List (List Nonterminal) :=
  phrases.flatMap fun n => [[n], [n, more]]

namespace Spelled

variable {phrases : List Nonterminal} {more : Nonterminal} {items : List (List Char)}

/-- Texts that are repetitions by themselves. -/
theorem flatten (hmore : [.nonterminal more, .nonterminal more] ∈ more.ways)
    (hitems : ∀ cs ∈ items, Free cs ∧ Spelled .operand [.nonterminal more] cs) (hne : items ≠ []) :
    Spelled place [.nonterminal more] items.flatten := by
  induction items generalizing place with
  | nil => exact absurd rfl hne
  | cons cs items ih =>
    obtain ⟨⟨-, hcs⟩, hrest⟩ := List.forall_mem_cons.mp hitems
    cases items with
    | nil => simpa using hcs.mono (Nat.zero_le place.rank)
    | cons cs' items =>
      exact of_way _ hmore ((hcs.mono (Nat.zero_le _)).append
        (ih hrest (List.cons_ne_nil cs' items)) (free_flatten fun cs hcs => (hrest cs hcs).1))

/-- Texts with commas before them, as a repetition. -/
theorem repetition (hmore : Repeats more phrases) (hitems : ∀ cs ∈ items, OneOf phrases .listed cs)
    (hne : items ≠ []) : Spelled place [.nonterminal more] (items.flatMap (',' :: ·)) := by
  rw [List.flatMap_def]
  refine flatten hmore.1 (List.forall_mem_map.mpr fun cs hcs => ⟨free_cons rfl _, ?_⟩)
    (by simpa using hne)
  obtain ⟨n, hn, hcs⟩ := hitems cs hcs
  exact of_way _ (hmore.2 n hn) (operator (o := [',']) (by decide) hcs)

/-- Texts with commas between them, as a list. -/
theorem listed (hmore : Repeats more phrases) (hcs : OneOf phrases place cs)
    (hitems : ∀ cs ∈ items, OneOf phrases place cs) : ∃ symbols ∈ lists phrases more,
      Spelled place (symbols.map .nonterminal) (cs ++ items.flatMap (',' :: ·)) := by
  obtain ⟨n, hn, hcs⟩ := hcs
  cases items with
  | nil => exact ⟨[n], List.mem_flatMap.mpr ⟨n, hn, by simp⟩, by simpa using hcs⟩
  | cons cs' items =>
    refine ⟨[n, more], List.mem_flatMap.mpr ⟨n, hn, by simp⟩, ?_⟩
    refine hcs.append (repetition hmore (fun cs hmem => ?_) (List.cons_ne_nil _ _))
      (free_cons rfl _)
    obtain ⟨n, hn, hcs⟩ := hitems cs hmem
    exact ⟨n, hn, hcs.mono (by cases place <;> decide)⟩

/-- A list of texts on one line. -/
theorem list (hmore : Repeats more phrases) (hitems : ∀ cs ∈ items, OneOf phrases place cs)
    (hne : items ≠ []) : ∃ symbols ∈ lists phrases more,
      Spelled place (symbols.map .nonterminal) ([',', ' '].intercalate items) := by
  obtain ⟨cs, items, rfl⟩ := List.exists_cons_of_ne_nil hne
  obtain ⟨hcs, hrest⟩ := List.forall_mem_cons.mp hitems
  have hspaced : ∀ cs ∈ items.map (' ' :: ·), OneOf phrases place cs := by
    refine List.forall_mem_map.mpr fun cs hmem => ?_
    obtain ⟨n, hn, hcs⟩ := hrest cs hmem
    exact ⟨n, hn, space (.inl rfl) hcs⟩
  have htext : [',', ' '].intercalate (cs :: items) =
      cs ++ (items.map (' ' :: ·)).flatMap (',' :: ·) := by
    rw [Text.intercalate_cons, List.flatMap_map]
    rfl
  rw [htext]
  exact listed hmore hcs hspaced

end Spelled

/-! ## Brackets -/

/-- The kinds of brackets. -/
inductive Brackets where
  | parens
  | brackets
  | braces

namespace Brackets

def opening : Brackets → Lexeme
  | parens => ⟨.leftParen, ['(']⟩
  | brackets => ⟨.leftBracket, ['[']⟩
  | braces => ⟨.leftBrace, ['\x7b']⟩

def closing : Brackets → Lexeme
  | parens => ⟨.rightParen, [')']⟩
  | brackets => ⟨.rightBracket, [']']⟩
  | braces => ⟨.rightBrace, ['\x7d']⟩

variable (b : Brackets)

theorem opening_mem : (b.opening.text, b.opening.terminal) ∈ fullOperators := by
  cases b <;> decide

theorem closing_mem : (b.closing.text, b.closing.terminal) ∈ fullOperators := by
  cases b <;> decide

/-- The symbols of phrases in brackets. -/
def around (phrases : List Nonterminal) : List Symbol :=
  .terminal b.opening.terminal :: (phrases.map .nonterminal ++ [.terminal b.closing.terminal])

/-- A text in brackets. -/
def wrap (cs : List Char) : List Char := b.opening.text ++ (cs ++ b.closing.text)

theorem free_closing : Free b.closing.text := by
  cases b <;> exact free_cons rfl []

theorem free_wrap (cs : List Char) : Free (b.wrap cs) := by
  cases b <;> exact free_cons rfl _

end Brackets

/-- A text that may stand in the brackets of a phrase. -/
def Fills (b : Brackets) (n : Nonterminal) (cs : List Char) : Prop :=
  ∃ phrases, b.around phrases ∈ n.ways ∧ Spelled .other (phrases.map .nonterminal) cs

namespace Fills

variable {b : Brackets}

theorem spelled (h : Fills b n cs) (place : Place) :
    Spelled place [.nonterminal n] (b.wrap cs) := by
  obtain ⟨phrases, hway, h⟩ := h
  have hplace : Place.after b.opening.terminal = .other := by cases b <;> rfl
  refine .of_way _ hway (.operator b.opening_mem ?_)
  rw [hplace]
  have hclose : Spelled (Place.other.through (phrases.map .nonterminal))
      [.terminal b.closing.terminal] (b.closing.text ++ []) := .operator b.closing_mem .nil
  rw [List.append_nil] at hclose
  exact h.append hclose b.free_closing

/-- A list that may be empty. -/
theorem of_list (phrases : List Nonterminal) (more : Nonterminal) {items : List (List Char)}
    (hways : ∀ symbols ∈ [] :: lists phrases more, b.around symbols ∈ n.ways)
    (hmore : Repeats more phrases)
    (hitems : ∀ cs ∈ items, OneOf phrases .other cs) :
    Fills b n ([',', ' '].intercalate items) := by
  by_cases hne : items = []
  · subst hne
    exact ⟨[], hways [] List.mem_cons_self, .nil⟩
  · obtain ⟨symbols, hsymbols, h⟩ := Spelled.list hmore hitems hne
    exact ⟨symbols, hways symbols (List.mem_cons_of_mem _ hsymbols), h⟩

end Fills

end Interposer.Source
