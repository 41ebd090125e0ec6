import Interposer.Package.OfSource

/-! Readings of a source text, told without a parser: a text consists of lexemes, whatever the
parser expects, and a reading is a tree of the grammar over them. A parser is taken at its word that
it finds a tree without errors if and only if the text has a reading, and that such a tree is
one. -/

namespace Interposer.Source

/-! ## Lexemes -/

/-- A token as it stands in the text. All words are identifiers here. -/
structure Lexeme where
  terminal : Terminal
  text : List Char

/-- The tokens that may go on in a string after one of its tokens; there are none after others. -/
def inside : Terminal → TerminalSet
  | .openQuote | .quotedContent | .escape => .ofList [.quotedContent, .closeQuote, .escape]
  | .openBackquote => .single .rawContent
  | .rawContent => .single .closeBackquote
  | _ => ∅

/-- The lexemes of a text that comes after a token `last`. Every line feed outside of strings is a
lexeme of its own. -/
inductive Lexes : Terminal → List Char → List Lexeme → Prop
  | done {last : Terminal} : inside last = ∅ → Lexes last [] []
  | inString {last t : Terminal} {n : Nat} {cs : List Char} {ls : List Lexeme} :
      Lexer.inString (inside last) cs = some (t, n) → Lexes t (cs.drop n) ls →
      Lexes last cs (⟨t, cs.take n⟩ :: ls)
  | token {last t : Terminal} {n : Nat} {cs : List Char} {ls : List Lexeme} :
      inside last = ∅ → Lexer.longest (Lexer.candidates Lexer.anything cs) = some (t, n) →
      Lexes t (cs.drop n) ls → Lexes last cs (⟨t, cs.take n⟩ :: ls)
  | newline {last : Terminal} {cs : List Char} {ls : List Lexeme} :
      inside last = ∅ → Lexes .newline cs ls →
      Lexes last ('\n' :: cs) (⟨.newline, ['\n']⟩ :: ls)
  | space {last : Terminal} {c : Char} {cs : List Char} {ls : List Lexeme} :
      inside last = ∅ → Lexer.isSpace c = true → c ≠ '\n' → Lexes .newline cs ls →
      Lexes last (c :: cs) ls

theorem inString_empty (cs : List Char) : Lexer.inString ∅ cs = none := by
  cases cs <;> rfl

theorem longest_space {c : Char} (h : Lexer.isSpace c = true) (cs : List Char) :
    Lexer.longest (Lexer.candidates Lexer.anything (c :: cs)) = none := by
  simp only [Lexer.isSpace, Bool.or_eq_true, beq_iff_eq] at h
  rcases h with ((((rfl | rfl) | rfl) | rfl) | rfl) | rfl <;> rfl

/-- A text has its lexemes in one way only. -/
theorem Lexes.unique {last : Terminal} {cs : List Char} {ls ls' : List Lexeme}
    (h : Lexes last cs ls) (h' : Lexes last cs ls') : ls = ls' := by
  induction h generalizing ls' with
  | done hout =>
    cases h' with
    | done => rfl
    | inString hfound => simp [hout, inString_empty] at hfound
    | token _ hfound => cases hfound
  | inString hfound _ ih =>
    cases h' with
    | inString hfound' h' => cases hfound.symm.trans hfound'; rw [ih h']
    | done hout | token hout | newline hout | space hout => simp [hout, inString_empty] at hfound
  | token hout hfound _ ih =>
    cases h' with
    | token _ hfound' h' => cases hfound.symm.trans hfound'; rw [ih h']
    | done => cases hfound
    | inString hfound' => simp [hout, inString_empty] at hfound'
    | newline => rw [longest_space rfl] at hfound; cases hfound
    | space _ hspace => rw [longest_space hspace] at hfound; cases hfound
  | newline hout _ ih =>
    cases h' with
    | newline _ h' => rw [ih h']
    | inString hfound' => simp [hout, inString_empty] at hfound'
    | token _ hfound' => rw [longest_space rfl] at hfound'; cases hfound'
    | space _ _ hne => exact (hne rfl).elim
  | space hout hspace hne _ ih =>
    cases h' with
    | space _ _ _ h' => exact ih h'
    | inString hfound' => simp [hout, inString_empty] at hfound'
    | token _ hfound' => rw [longest_space hspace] at hfound'; cases hfound'
    | newline => exact (hne rfl).elim

/-! ## Terminals -/

/-- Where a token stands, as far as it matters for keywords. -/
inductive Place where
  /-- At the beginning of an operand or of a statement. -/
  | operand
  /-- After a comma, in the middle of a phrase. -/
  | listed
  | other
  deriving DecidableEq

namespace Place

/-- Whether the word of a keyword may be an identifier. Those that stand for operands may wherever
no operand can begin, and others where nothing but an identifier can be. -/
def admits : Place → Terminal → Bool
  | _, .underscore => true
  | .listed, _ => true
  | .other, .kwNew | .other, .kwMake | .other, .kwNil | .other, .kwTrue | .other, .kwFalse
  | .other, .kwIota => true
  | _, _ => false

/-- The place after a terminal in a phrase. -/
def after (t : Terminal) : Place := if t = .comma then .listed else .other

/-- The place where a nonterminal begins, given that of the nonterminal. -/
def within (place : Place) : Nonterminal → Place
  | .expression | .statement | .emptyLabeledStmt => .operand
  | _ => if place = .listed then .other else place

end Place

namespace Lexeme

def keyword? (l : Lexeme) : Option Terminal :=
  if l.terminal = .identifier then Lexer.keyword? l.text else none

/-- Whether a lexeme may be taken for a terminal. -/
def Matches (l : Lexeme) (place : Place) (t : Terminal) : Prop :=
  match l.keyword? with
  | some k => t = k ∨ t = .identifier ∧ place.admits k = true
  | none => t = l.terminal

end Lexeme

/-! ## Phrases -/

/-- The ways to write a nonterminal down. -/
def Nonterminal.ways (n : Nonterminal) : List (List Symbol) :=
  n.rules.flatMap (·.phrase.ways)

/-- A tree for a terminal, with the text that it takes up. Ends of lines may take up more. -/
def Tree.IsLeaf (tree : Tree) (t : Terminal) (text : List Char) : Prop :=
  ∃ summary, tree = .mk (.terminal t) summary [] ∧
    (t ≠ .newline → summary.start.textTo summary.stop = text)

/-- What may stand after any part of a phrase: comments, which have trees, and ends of lines. -/
inductive Extras : List Tree → List Lexeme → Prop
  | nil : Extras [] []
  | newline {text : List Char} {trees : List Tree} {ls : List Lexeme} :
      Extras trees ls → Extras trees (⟨.newline, text⟩ :: ls)
  | comment {tree : Tree} {text : List Char} {trees : List Tree} {ls : List Lexeme} :
      tree.IsLeaf .comment text → Extras trees ls →
      Extras (tree :: trees) (⟨.comment, text⟩ :: ls)

/-- Trees that are a way to read lexemes as a phrase, where it stands at some place. -/
inductive Derives : Place → List Symbol → List Tree → List Lexeme → Prop
  | nil {place : Place} : Derives place [] [] []
  | terminal {place : Place} {t : Terminal} {l : Lexeme} {leaf : Tree} {rest : List Symbol}
      {extras trees : List Tree} {els ls : List Lexeme} :
      l.Matches place t → leaf.IsLeaf t l.text → Extras extras els →
      Derives (.after t) rest trees ls →
      Derives place (.terminal t :: rest) (leaf :: (extras ++ trees)) (l :: (els ++ ls))
  | nonterminal {place : Place} {n : Nonterminal} {way rest : List Symbol} {summary : Summary}
      {children extras trees : List Tree} {inner els ls : List Lexeme} :
      way ∈ n.ways → Derives (place.within n) way children inner → Extras extras els →
      Derives .other rest trees ls →
      Derives place (.nonterminal n :: rest)
        (.mk (.nonterminal n) summary children :: (extras ++ trees)) (inner ++ (els ++ ls))

/-- A tree that is a way to read the text as a file. -/
inductive Reading (text : List Char) : Tree → Prop
  | file {way : List Symbol} {summary : Summary} {last : Tree} {before trees after : List Tree}
      {bls ls als : List Lexeme} :
      Lexes .newline text (bls ++ (ls ++ als)) → Extras before bls →
      way ∈ Nonterminal.file.ways → Derives .other way trees ls → Extras after als →
      last.IsLeaf .endOfText [] →
      Reading text (.mk (.nonterminal .file) summary (before ++ (trees ++ (after ++ [last]))))

/-! ## Parsers -/

/-- The parser finds the readings of a text: it has a tree without errors if there is a reading, and
this tree is one. -/
structure Reads (parser : List Char → Option Tree) (text : List Char) : Prop where
  sound : ∀ tree, parser text = some tree → tree.cost = 0 → Reading text tree
  complete : (∃ tree, Reading text tree) → ∃ tree, parser text = some tree ∧ tree.cost = 0

/-- A parser that finds the readings of every text, with no regard to how. -/
noncomputable def readingOf? (text : List Char) : Option Tree := by
  classical
  exact if h : ∃ tree, Reading text tree ∧ tree.cost = 0 then some h.choose else none

/-- A text with a reading has one without errors, as a reading leaves open what its root sums up. -/
theorem Reading.exists_cost_eq_zero {text : List Char} {tree : Tree} (h : Reading text tree) :
    ∃ tree, Reading text tree ∧ tree.cost = 0 := by
  cases h with
  | file hlexes hbefore hway hderives hafter hlast =>
    exact ⟨.mk _ default _, .file hlexes hbefore hway hderives hafter hlast, rfl⟩

theorem reads_readingOf? (text : List Char) : Reads readingOf? text where
  sound tree hparser hcost := by
    obtain ⟨h, hchosen⟩ := Option.dite_none_right_eq_some.mp hparser
    cases hchosen
    exact h.choose_spec.1
  complete := by
    rintro ⟨tree, hreading⟩
    have h := hreading.exists_cost_eq_zero
    exact ⟨h.choose, dif_pos h, h.choose_spec.2⟩

/-- What a source file declares, as some parser has it. -/
def parseBy (parser : List Char → Option Tree) (text : List Char) : Except Nat (List Item) :=
  match parser text with
  | none => .error 1
  | some tree =>
    if tree.cost > 0 then .error (tree.errorLine?.getD 0 + 1)
    else .ok ((Outline.ofTree none tree).flatMap fun o => o.parts.map Outline.item)

theorem parse_eq (text : List Char) : parse text = parseBy Tree.ofText text := by
  unfold parse parseBy
  cases Tree.ofText text <;> rfl

end Source

/-- The package that a single source file makes up, as some parser has it. -/
def Package.ofSourceBy (parser : List Char → Option Source.Tree) (location text path : String) :
    Except Failure Package :=
  match Source.parseBy parser text.toList with
  | .error line => .error (.load location (.syntaxError line))
  | .ok items =>
    let scope : Source.Scope := ⟨text.toList, path, Source.importEntries items, []⟩
    .ok ⟨Source.packageName items, path, items.flatMap scope.readItem⟩

theorem Package.ofSource_eq (location text path : String) :
    Package.ofSource location text path =
      Package.ofSourceBy Source.Tree.ofText location text path := by
  unfold ofSource ofSourceBy
  have hparse := Source.parse_eq text.toList
  generalize Source.parse text.toList = parsed at hparse ⊢
  generalize Source.parseBy Source.Tree.ofText text.toList = parsed' at hparse ⊢
  cases hparse
  cases parsed <;> rfl

/-- A text without a reading is refused, by every parser that finds readings. -/
theorem Package.ofSourceBy_eq_error {parser : List Char → Option Source.Tree} {text : String}
    (hreads : Source.Reads parser text.toList) (h : ¬ ∃ tree, Source.Reading text.toList tree)
    (location path : String) : ∃ line, Package.ofSourceBy parser location text path =
      .error (.load location (.syntaxError line)) := by
  suffices hparse : ∃ line, Source.parseBy parser text.toList = .error line by
    obtain ⟨line, hparse⟩ := hparse
    exact ⟨line, by rw [ofSourceBy, hparse]⟩
  rw [Source.parseBy]
  cases hparser : parser text.toList with
  | none => exact ⟨1, rfl⟩
  | some tree =>
    have hcost : tree.cost > 0 :=
      Nat.pos_of_ne_zero fun hcost => h ⟨tree, hreads.sound tree hparser hcost⟩
    exact ⟨_, if_pos hcost⟩

end Interposer
