import Interposer.Proofs.Source.Declared

/-! The items of a file: in every reading of a text they are those that its lexemes declare
(`items_of_reading`). Where the lexemes tell nothing, for instance about the constants that they
declare, nothing is said. -/

namespace Interposer.Source

/-! ## Items that show -/

/-- Whether an item introduces no names. -/
def Item.isSilent : Item → Bool
  | .nothing | .imports _ => true
  | .vars names => names.all (· = "_")
  | _ => false

/-- The items of a file with these trees, those aside that introduce no names. -/
def shown (trees : List Tree) : List Item :=
  ((Outline.ofTrees (some .file) trees).map Outline.item).filter (!·.isSilent)

/-- The lexemes of the trees declare their items, if there is an answer. -/
def Declares (trees : List Tree) (ls : List Lexeme) : Prop :=
  ∀ rest items, declared (outer 0 (ls ++ rest)) = some items →
    (declared (outer 0 rest)).map (shown trees ++ ·) = some items

variable {trees trees' : List Tree} {ls ls' rest : List Lexeme} {place : Place} {n : Nonterminal}
  {within : Option Nonterminal} {items : List Item}

theorem ofTrees_append (within : Option Nonterminal) (trees trees' : List Tree) :
    Outline.ofTrees within (trees ++ trees') =
      Outline.ofTrees within trees ++ Outline.ofTrees within trees' := by
  induction trees with
  | nil => rfl
  | cons t ts ih => rw [List.cons_append, Outline.ofTrees, Outline.ofTrees, ih, List.append_assoc]

theorem shown_append (trees trees' : List Tree) :
    shown (trees ++ trees') = shown trees ++ shown trees' := by
  rw [shown, ofTrees_append, List.map_append, List.filter_append]
  rfl

theorem declares_nil : Declares [] [] := fun rest items h => by
  rw [List.nil_append] at h
  rw [h]
  rfl

theorem Declares.append (h : Declares trees ls) (h' : Declares trees' ls') :
    Declares (trees ++ trees') (ls ++ ls') := by
  intro rest items hdeclared
  rw [List.append_assoc] at hdeclared
  obtain ⟨items', hitems', rfl⟩ := Option.map_eq_some_iff.mp (h _ _ hdeclared)
  obtain ⟨items'', hitems'', rfl⟩ := Option.map_eq_some_iff.mp (h' _ _ hitems')
  rw [hitems'', shown_append, Option.map_some, List.append_assoc]

/-! ## Extras and leaves -/

theorem ofTrees_extras (h : Extras trees ls) (hwithin : within ≠ some .packageClause) :
    Outline.ofTrees within trees = [] := by
  induction h with
  | nil => rfl
  | newline _ ih => exact ih
  | comment hleaf _ ih =>
    obtain ⟨summary, rfl, -⟩ := hleaf
    rw [Outline.ofTrees, ih, Outline.ofTree, Outline.keeps]
    simp [hwithin]

theorem declared_extras (h : Extras trees ls) :
    declared (outer 0 (ls ++ rest)) = declared (outer 0 rest) := by
  induction h with
  | nil => rfl
  | newline _ ih => rw [List.cons_append, outer_newline rfl, ih]
  | comment _ _ ih =>
    rw [List.cons_append, outer_inner rfl, if_pos rfl, List.cons_append, List.nil_append,
      declared_cons rfl, ih]

/-- Unless a comment comes first, there are only ends of lines. -/
theorem Extras.comment_or_empty (h : Extras trees ls) :
    trees = [] ∧ (∀ rest, outer 0 (ls ++ rest) = outer 0 rest) ∨
      ∃ c, c.terminal = .comment ∧ ∀ rest, ∃ ls', outer 0 (ls ++ rest) = c :: ls' := by
  induction h with
  | nil => exact .inl ⟨rfl, fun _ => rfl⟩
  | newline _ ih =>
    rcases ih with ⟨htrees, hls⟩ | ⟨c, hc, hls⟩
    · exact .inl ⟨htrees, fun rest => by rw [List.cons_append, outer_newline rfl, hls]⟩
    · refine .inr ⟨c, hc, fun rest => ?_⟩
      rw [List.cons_append, outer_newline rfl]
      exact hls rest
  | @comment _ text =>
    refine .inr ⟨⟨.comment, text⟩, rfl, fun rest => ?_⟩
    rw [List.cons_append, outer_inner rfl, if_pos rfl]
    exact ⟨_, rfl⟩

theorem declares_extras (h : Extras trees ls) : Declares trees ls := fun rest items hdeclared => by
  rw [declared_extras h] at hdeclared
  rw [hdeclared, shown, ofTrees_extras h (by decide)]
  rfl

theorem ofTrees_leaf (within : Option Nonterminal) {leaf : Tree} {t : Terminal}
    {text : List Char} (h : leaf.IsLeaf t text) (hkeeps : Outline.keeps within t = true)
    (hne : t ≠ .newline) (trees : List Tree) :
    ∃ span, Outline.ofTrees within (leaf :: trees) =
      .token t span text :: Outline.ofTrees within trees := by
  obtain ⟨summary, rfl, htext⟩ := h
  refine ⟨⟨summary.start.offset, summary.stop.offset⟩, ?_⟩
  rw [Outline.ofTrees, Outline.ofTree, htext hne]
  simp only [if_pos hkeeps]
  rfl

/-- The first lexeme of a phrase that begins with a terminal. -/
theorem outer_terminal {l : Lexeme} {t : Terminal} (hmatch : l.Matches place t)
    (ht : t.isInner = true) (ls : List Lexeme) : outer 0 (l :: ls) = l :: outer 0 ls := by
  have hinner : l.terminal.isInner = true := by
    simpa [ht] using hmatch.iff_terminal (P := fun t => !t.isInner) (by decide)
  rw [outer_inner hinner]
  rfl

/-! ## Items of one phrase -/

theorem ofTrees_nonterminal (within : Option Nonterminal) (hvisible : n.isVisible = true)
    (summary : Summary) (children trees : List Tree) : ∃ span text,
    Outline.ofTrees within (.mk (.nonterminal n) summary children :: trees) =
      .phrase n span text (Outline.ofTrees (some n) children) :: Outline.ofTrees within trees := by
  refine ⟨⟨summary.start.offset, summary.stop.offset⟩, summary.start.textTo summary.stop, ?_⟩
  rw [Outline.ofTrees, Outline.ofTree]
  simp only [hvisible, if_true]
  rfl

/-- A hidden phrase stands for its parts. -/
theorem shown_hidden (hhidden : n.isVisible = false) (summary : Summary) (children : List Tree) :
    shown [.mk (.nonterminal n) summary children] = shown children := by
  rw [shown, Outline.ofTrees, Outline.ofTree]
  simp [hhidden, Outline.ofTrees, shown]

/-- Phrases that may be items, and what is made up of them. -/
def Nonterminal.isItem : Nonterminal → Bool
  | .moreItems | .statement | .simpleStmt | .packageClause | .functionDecl | .methodDecl
  | .importDecl | .constDecl | .typeDecl | .varDecl | .returnStmt | .goStmt | .deferStmt | .ifStmt
  | .forStmt | .switchStmt | .typeSwitchStmt | .selectStmt | .labeledStmt | .fallthroughStmt
  | .breakStmt | .continueStmt | .gotoStmt | .block | .emptyStmt | .expressionStmt | .sendStmt
  | .incrementStmt | .decrementStmt | .assignment | .shortVarDecl => true
  | _ => false

theorem isSilent_item (hitem : n.isItem = true) (hcalm : n.isCalm = true) (span : Span)
    (text : List Char) (parts : List Outline) :
    (Outline.item (.phrase n span text parts)).isSilent = true := by
  cases n <;> first | rfl | exact absurd hitem (by decide) | exact absurd hcalm (by decide)

theorem declares_calm {way : List Symbol} {children : List Tree} (hitem : n.isItem = true)
    (hvisible : n.isVisible = true) (hcalm : n.isCalm = true) (hway : way ∈ n.ways)
    (h : Derives (place.within n) way children ls) (summary : Summary) :
    Declares [.mk (.nonterminal n) summary children] ls := by
  intro rest items hdeclared
  have hphrase : Derives place [.nonterminal n] [.mk (.nonterminal n) summary children] ls := by
    simpa using Derives.nonterminal hway h .nil .nil
  have hsymbols : isCalm [.nonterminal n] place = true := by
    simp [isCalm, Monitor.allows, calmTable, hcalm]
  rw [declared_of_isCalm hphrase hsymbols hdeclared, shown]
  obtain ⟨span, text, hparts⟩ := ofTrees_nonterminal (some .file) hvisible summary children []
  rw [hparts]
  simp [isSilent_item hitem hcalm, Outline.ofTrees]

/-- In front of the name of a package a comment would be taken for the name. -/
theorem declares_packageClause {way : List Symbol} {children : List Tree}
    (hway : way ∈ Nonterminal.packageClause.ways) (h : Derives place way children ls)
    (summary : Summary) : Declares [.mk (.nonterminal .packageClause) summary children] ls := by
  obtain rfl : way = [.terminal .kwPackage, .terminal .identifier] :=
    List.mem_singleton.mp hway
  intro rest items hdeclared
  cases h with
  | terminal hpackage hleaf hextras h =>
    cases h with
    | @terminal _ _ name leaf _ _ _ _ _ hname hleaf' hextras' h =>
      cases h
      rw [List.cons_append, outer_terminal hpackage rfl, List.append_assoc] at hdeclared
      rcases hextras.comment_or_empty with ⟨rfl, hempty⟩ | ⟨c, hc, hcomment⟩
      · rw [hempty, List.cons_append, outer_terminal hname rfl,
          declared_package (hpackage.kind_eq nofun), List.append_nil, declared_cons
          (hname.isOrdinary (by decide) rfl), declared_extras hextras',
          if_pos hname.terminal_eq] at hdeclared
        obtain ⟨span, text, hparts⟩ :=
          ofTrees_nonterminal (n := .packageClause) (some .file) rfl summary _ []
        obtain ⟨span', hfirst⟩ := ofTrees_leaf (some .packageClause) hleaf rfl nofun _
        obtain ⟨span'', hsecond⟩ := ofTrees_leaf (some .packageClause) hleaf' rfl nofun _
        rw [shown, hparts, hfirst, List.nil_append, hsecond]
        exact hdeclared
      · obtain ⟨ls', hls'⟩ := hcomment _
        rw [hls', declared_package (hpackage.kind_eq nofun), hc] at hdeclared
        cases hdeclared

theorem functionDecl_ways : ∀ way ∈ Nonterminal.functionDecl.ways, ∃ rest,
    way = .terminal .kwFunc :: .terminal .identifier :: rest ∧ isCalm rest .other = true := by
  have hall : Nonterminal.functionDecl.ways.all (fun way =>
      way.take 2 = [.terminal .kwFunc, .terminal .identifier] && isCalm (way.drop 2) .other) =
      true := by
    decide +kernel
  intro way hway
  have h := List.all_eq_true.mp hall way hway
  simp only [Bool.and_eq_true, decide_eq_true_eq] at h
  refine ⟨way.drop 2, ?_, h.2⟩
  rw [← List.take_append_drop 2 way, h.1]
  rfl

theorem declares_functionDecl {way : List Symbol} {children : List Tree}
    (hway : way ∈ Nonterminal.functionDecl.ways) (h : Derives place way children ls)
    (summary : Summary) : Declares [.mk (.nonterminal .functionDecl) summary children] ls := by
  obtain ⟨symbols, rfl, hcalm⟩ := functionDecl_ways way hway
  intro rest items hdeclared
  cases h with
  | terminal hfunc hleaf hextras h =>
    cases h with
    | @terminal _ _ name leaf _ _ _ _ _ hname hleaf' hextras' h =>
      rw [List.cons_append, outer_terminal hfunc rfl, List.append_assoc] at hdeclared
      rcases hextras.comment_or_empty with ⟨rfl, hempty⟩ | ⟨c, hc, hcomment⟩
      · rw [hempty, List.cons_append, outer_terminal hname rfl,
          declared_func (hfunc.kind_eq nofun), declared_cons (hname.isOrdinary (by decide) rfl),
          List.append_assoc, declared_extras hextras', hname.terminal_eq, if_neg nofun,
          if_pos rfl] at hdeclared
        obtain ⟨items', hitems', rfl⟩ := Option.map_eq_some_iff.mp hdeclared
        rw [declared_of_isCalm h hcalm hitems']
        obtain ⟨span, text, hparts⟩ :=
          ofTrees_nonterminal (n := .functionDecl) (some .file) rfl summary _ []
        obtain ⟨span', hfirst⟩ := ofTrees_leaf (some .functionDecl) hleaf rfl nofun _
        obtain ⟨span'', hsecond⟩ := ofTrees_leaf (some .functionDecl) hleaf' rfl nofun _
        rw [shown, hparts, hfirst, List.nil_append, hsecond]
        rfl
      · obtain ⟨ls', hls'⟩ := hcomment _
        rw [hls', declared_func (hfunc.kind_eq nofun), hc] at hdeclared
        cases hdeclared

/-! ## First lexemes -/

theorem Place.within_ne_listed (place : Place) (n : Nonterminal) : place.within n ≠ .listed := by
  cases place <;> cases n <;> decide

/-- Whether a symbol is one of some terminals or nonterminals. -/
def Symbol.isOneOf (P : Terminal → Bool) (N : Nonterminal → Bool) : Symbol → Bool
  | .terminal t => P t
  | .nonterminal n => N n

/-- Phrases begin with some terminals if their productions do. -/
theorem Derives.exists_first {symbols : List Symbol} {P : Terminal → Bool} {N : Nonterminal → Bool}
    (hN : ∀ n, N n = true → ∀ way ∈ n.ways, way.head?.any (·.isOneOf P N) = true)
    (h : Derives place symbols trees ls) (hfirst : symbols.head?.any (·.isOneOf P N) = true)
    (hplace : place ≠ .listed) : ∃ l ls' place' t, ls = l :: ls' ∧ l.Matches place' t ∧
      place' ≠ .listed ∧ P t = true := by
  induction h with
  | nil => cases hfirst
  | terminal hmatch => exact ⟨_, _, _, _, rfl, hmatch, hplace, hfirst⟩
  | nonterminal hway _ _ _ ih =>
    obtain ⟨l, ls', place', t, rfl, hmatch⟩ := ih (hN _ hfirst _ hway) (Place.within_ne_listed _ _)
    exact ⟨l, _, place', t, rfl, hmatch⟩

theorem Lexeme.Matches.kind_ne_struct {l : Lexeme} {t : Terminal} (h : l.Matches place t)
    (hplace : place ≠ .listed) (hne : t ≠ .kwStruct) : l.kind ≠ .kwStruct := by
  rcases h.cases with rfl | ⟨-, -, hadmits⟩
  · exact hne
  · intro hkind
    rw [hkind] at hadmits
    cases place <;> first | exact hplace rfl | cases hadmits

/-- After extras, the first lexeme outside of brackets is a comment or one that begins there. -/
theorem Extras.outer_first (h : Extras trees ls) {l : Lexeme} (hnewline : l.terminal ≠ .newline)
    (hcloses : l.terminal.closes = false) (rest : List Lexeme) :
    ∃ l' ls', outer 0 (ls ++ l :: rest) = l' :: ls' ∧ (l'.terminal = .comment ∨ l' = l) := by
  rcases h.comment_or_empty with ⟨-, hempty⟩ | ⟨c, hc, hcomment⟩
  · rw [hempty]
    by_cases hopens : l.terminal.opens = true
    · rw [outer_opens hopens]
      exact ⟨_, _, rfl, .inr rfl⟩
    · rw [outer_inner (by simp [Terminal.isInner, *])]
      exact ⟨_, _, rfl, .inr rfl⟩
  · obtain ⟨ls', hls'⟩ := hcomment (l :: rest)
    exact ⟨c, ls', hls', .inl hc⟩

/-! ## Other declarations -/

theorem declares_constDecl {way : List Symbol} {children : List Tree}
    (hway : way ∈ Nonterminal.constDecl.ways)
    (h : Derives (place.within .constDecl) way children ls)
    (trees : List Tree) : Declares trees ls := by
  have hfirst : ∀ way ∈ Nonterminal.constDecl.ways,
      way.head?.any (·.isOneOf (· = .kwConst) fun _ => false) = true := by decide
  obtain ⟨l, ls', place', t, rfl, hconst, -, ht⟩ :=
    h.exists_first (fun _ h => absurd h Bool.false_ne_true) (hfirst way hway)
      (Place.within_ne_listed _ _)
  obtain rfl : t = .kwConst := of_decide_eq_true ht
  intro rest items hdeclared
  rw [List.cons_append, outer_terminal hconst rfl, declared_const (hconst.kind_eq nofun)]
    at hdeclared
  cases hdeclared

theorem declares_labeledStmt {way : List Symbol} {children : List Tree}
    (hway : way ∈ Nonterminal.labeledStmt.ways)
    (h : Derives (place.within .labeledStmt) way children ls)
    (trees : List Tree) : Declares trees ls := by
  obtain rfl : way = [.terminal .identifier, .terminal .colon, .nonterminal .statement] :=
    List.mem_singleton.mp hway
  intro rest items hdeclared
  cases h with
  | terminal hname _ hextras h =>
    cases h with
    | terminal hcolon =>
      rw [List.cons_append, outer_terminal hname rfl, List.append_assoc,
        declared_cons (hname.isOrdinary (Place.within_ne_listed _ _) rfl), declared_extras hextras,
        List.cons_append, outer_terminal hcolon rfl,
        declared_separator (.inl (hcolon.kind_eq nofun))] at hdeclared
      cases hdeclared

/-- After the first variable of a declaration there is nothing to be taken for a name. -/
theorem varSpec_ways : ∀ way ∈ Nonterminal.varSpec.ways, ∃ x rest,
    way = .terminal .identifier :: x :: rest ∧ isCalm (x :: rest) .other = true ∧
      x ∈ [.nonterminal .moreNames, .terminal .assign, .nonterminal .parenType,
        .nonterminal .simpleType] := by
  have hall : Nonterminal.varSpec.ways.all (fun way =>
      way.head? = some (.terminal .identifier) && isCalm way.tail .other &&
        way.tail.head?.any ([.nonterminal .moreNames, .terminal .assign, .nonterminal .parenType,
          .nonterminal .simpleType].contains ·)) = true := by
    decide +kernel
  intro way hway
  have h := List.all_eq_true.mp hall way hway
  cases way with
  | nil => cases h
  | cons first rest =>
    cases rest with
    | nil => simp at h
    | cons x rest =>
      simp only [Bool.and_eq_true, decide_eq_true_eq] at h
      obtain ⟨⟨hfirst, hcalm⟩, hx⟩ := h
      cases hfirst
      exact ⟨x, rest, rfl, hcalm, List.contains_iff_mem.mp hx⟩

/-- The nonterminals that stand for types by themselves. -/
def typeForms : List Nonterminal :=
  [.genericType, .qualifiedType, .pointerType, .structType, .interfaceType, .arrayType, .sliceType,
    .mapType, .chanType, .funcType, .tildeType]

theorem simpleType_ways : ∀ way ∈ Nonterminal.simpleType.ways, way = [.terminal .identifier] ∨
    ∃ n ∈ typeForms, way = [.nonterminal n] := by
  decide

/-- What begins with a type has no comma first. -/
theorem leadingNames_of_type {x : Symbol} {symbols : List Symbol}
    (h : Derives place (x :: symbols) trees ls)
    (hx : x ∈ [.terminal .assign, .nonterminal .parenType, .nonterminal .simpleType])
    (hwithin : within ≠ some .packageClause) (name : Outline) :
    Outline.leadingNames (name :: Outline.ofTrees within trees) = [name] := by
  have hkeeps : ∀ t, t.isInner = true → t ≠ .comment → t ≠ .endOfText →
      Outline.keeps within t = true := by
    intro t ht hcomment hend
    cases t <;> simp_all [Outline.keeps, Terminal.isInner, Terminal.isVisible]
  cases h with
  | terminal _ hleaf =>
    obtain rfl : _ = Terminal.assign := by simpa using hx
    obtain ⟨span, hfirst⟩ :=
      ofTrees_leaf within hleaf (hkeeps _ rfl (by decide) (by decide)) (by decide) _
    rw [hfirst]
    rfl
  | @nonterminal _ n way _ summary children extras _ _ _ _ hway hinner =>
    have hvisible : ∀ n summary children trees, n.isVisible = true → Outline.leadingNames
        (name :: Outline.ofTrees within (.mk (.nonterminal n) summary children :: trees)) =
          [name] := by
      intro n summary children trees hn
      obtain ⟨span, text, hparts⟩ := ofTrees_nonterminal within hn summary children trees
      rw [hparts]
      rfl
    by_cases hn : n = .parenType
    · subst hn
      exact hvisible _ _ _ _ rfl
    obtain rfl : n = .simpleType := by simpa [hn] using hx
    rw [Outline.ofTrees, Outline.ofTree]
    simp only [show Nonterminal.simpleType.isVisible = false from rfl, Bool.false_eq_true, if_false]
    rcases simpleType_ways way hway with rfl | ⟨n, hn, rfl⟩
    · cases hinner with
      | terminal _ hleaf =>
        obtain ⟨span, hfirst⟩ :=
          ofTrees_leaf within hleaf (hkeeps _ rfl (by decide) (by decide)) (by decide) _
        rw [hfirst]
        rfl
    · cases hinner with
      | nonterminal =>
        rw [← ofTrees_append]
        have hforms : ∀ n ∈ typeForms, n.isVisible = true := by decide
        exact hvisible _ _ _ _ (hforms n hn)

theorem varNames_of_type {x : Symbol} {symbols : List Symbol} {leaf : Tree} {text : List Char}
    {extras : List Tree} (hleaf : leaf.IsLeaf .identifier text) (hextras : Extras extras ls)
    (h : Derives place (x :: symbols) trees ls')
    (hx : x ∈ [.terminal .assign, .nonterminal .parenType, .nonterminal .simpleType])
    (span : Span) (chars : List Char) :
    Outline.varNames (.phrase .varSpec span chars
      (Outline.ofTrees (some .varSpec) (leaf :: (extras ++ trees)))) = [String.ofList text] := by
  obtain ⟨span', hfirst⟩ :=
    ofTrees_leaf (some .varSpec) hleaf (by decide) nofun (extras ++ trees)
  rw [Outline.varNames, Outline.parts, hfirst, ofTrees_append, ofTrees_extras hextras (by decide),
    List.nil_append, leadingNames_of_type h hx (by decide)]
  rfl

/-- A variable without a name does not show. -/
theorem shown_varDecl {leaf : Tree} {text : List Char} {extras : List Tree}
    {summary' : Summary} {children : List Tree} (hleaf : leaf.IsLeaf .kwVar text)
    (hextras : Extras extras ls)
    (hnames : ∀ span text, Outline.varNames (.phrase .varSpec span text
      (Outline.ofTrees (some .varSpec) children)) = ["_"]) (summary : Summary) :
    shown [.mk (.nonterminal .varDecl) summary
      (leaf :: .mk (.nonterminal .varSpec) summary' children :: extras)] = [] := by
  obtain ⟨span, text, hparts⟩ := ofTrees_nonterminal (n := .varDecl) (some .file) rfl summary
    (leaf :: .mk (.nonterminal .varSpec) summary' children :: extras) []
  obtain ⟨span', text', hspec⟩ :=
    ofTrees_nonterminal (n := .varSpec) (some .varDecl) rfl summary' children extras
  obtain ⟨span'', hfirst⟩ := ofTrees_leaf (some .varDecl) hleaf (by decide) nofun _
  rw [shown, hparts, hfirst, hspec, ofTrees_extras hextras (by decide)]
  simp [Outline.item, Outline.specs, Outline.isPhrase, hnames, Item.isSilent, Outline.ofTrees]

/-- Where there is an answer, the variable has no name. -/
theorem declares_varDecl {way : List Symbol} {children : List Tree}
    (hway : way ∈ Nonterminal.varDecl.ways) (h : Derives place way children ls)
    (summary : Summary) : Declares [.mk (.nonterminal .varDecl) summary children] ls := by
  have hways : ∀ way ∈ Nonterminal.varDecl.ways, way = [.terminal .kwVar, .nonterminal .varSpec] ∨
    way = [.terminal .kwVar, .nonterminal .varSpecs] := by decide
  intro rest items hdeclared
  rcases hways way hway with rfl | rfl
  · cases h with
    | terminal hvar hleaf hextras h =>
    cases h with
    | @nonterminal _ _ way _ summary' _ _ _ _ _ _ hway' hspec hextras' h =>
    cases h
    obtain ⟨x, symbols, rfl, hcalm, hx⟩ := varSpec_ways way hway'
    cases hspec with
    | @terminal _ _ name leaf _ extras trees _ _ hname hleaf' hextras'' h =>
    rw [List.cons_append, outer_terminal hvar rfl, List.append_assoc] at hdeclared
    rcases hextras.comment_or_empty with ⟨rfl, hempty⟩ | ⟨c, hc, hcomment⟩
    · rw [hempty, List.append_assoc, List.cons_append, outer_terminal hname rfl,
        declared_var (hvar.kind_eq nofun), List.append_nil, List.append_assoc,
        declared_cons (hname.isOrdinary (by decide) rfl), declared_extras hextras''] at hdeclared
      split at hdeclared
      · next hblank =>
        have hrest := declared_of_isCalm h hcalm hdeclared
        rw [declared_extras hextras'] at hrest
        by_cases hcomma : x = .nonterminal .moreNames
        · have hnames : ∀ n, decide (n = Nonterminal.moreNames) = true → ∀ way ∈ n.ways,
              way.head?.any (·.isOneOf (· = .comma) (· = .moreNames)) = true := by
            intro n hn
            obtain rfl := of_decide_eq_true hn
            decide
          obtain ⟨l, ls', place', t, rfl, hmatch, -, ht⟩ := h.exists_first
            (P := (· = .comma)) (N := (· = .moreNames)) hnames (by rw [hcomma]; rfl) nofun
          obtain rfl : t = .comma := of_decide_eq_true ht
          rw [List.cons_append, outer_terminal hmatch rfl,
            declared_separator (.inr (hmatch.kind_eq nofun))] at hdeclared
          cases hdeclared
        · have hnames := varNames_of_type hleaf' hextras'' h
            ((List.mem_cons.mp hx).resolve_left hcomma)
          rw [hblank.2] at hnames
          rw [hrest, List.nil_append, List.append_nil, shown_varDecl hleaf hextras' hnames summary]
          rfl
      · cases hdeclared
    · obtain ⟨ls', hls'⟩ := hcomment _
      rw [hls', declared_var (hvar.kind_eq nofun), hc] at hdeclared
      cases hdeclared
  · cases h with
    | terminal hvar hleaf hextras h =>
    have hspecs : ∀ n, decide (n = Nonterminal.varSpecs) = true → ∀ way ∈ n.ways,
        way.head?.any (·.isOneOf (· = .leftParen) (· = .varSpecs)) = true := by
      intro n hn
      obtain rfl := of_decide_eq_true hn
      decide
    obtain ⟨l, ls', place', t, rfl, hmatch, -, ht⟩ := h.exists_first
      (P := (· = .leftParen)) (N := (· = .varSpecs)) hspecs rfl nofun
    obtain rfl : t = .leftParen := of_decide_eq_true ht
    have hparen := hmatch.terminal_of_not_word (by decide)
    obtain ⟨l', ls'', hfirst, hl'⟩ :=
      hextras.outer_first (l := l) (by simp [hparen]) (by rw [hparen]; rfl) (ls' ++ rest)
    rw [List.cons_append, outer_terminal hvar rfl, List.append_assoc, List.cons_append, hfirst,
      declared_var (hvar.kind_eq nofun)] at hdeclared
    rcases hl' with hcomment | rfl
    · rw [hcomment] at hdeclared
      cases hdeclared
    · rw [hparen] at hdeclared
      cases hdeclared

/-! ## Declarations of types -/

/-- What may follow the name of a type, structs aside. -/
def Nonterminal.isOtherType : Nonterminal → Bool
  | .typeParams | .parenType | .genericType | .qualifiedType | .pointerType | .interfaceType
  | .arrayType | .sliceType | .mapType | .chanType | .funcType | .tildeType => true
  | _ => false

/-- Whether a terminal may be the first of a type that is no struct. -/
def Terminal.isOther (t : Terminal) : Bool := t ≠ .kwStruct && t ≠ .newline && !t.closes

theorem Derives.exists_other {symbols : List Symbol} (h : Derives place symbols trees ls)
    (hfirst : symbols.head?.any (·.isOneOf Terminal.isOther Nonterminal.isOtherType) = true)
    (hplace : place ≠ .listed) : ∃ l ls', ls = l :: ls' ∧ l.kind ≠ .kwStruct ∧
      l.terminal ≠ .newline ∧ l.terminal.closes = false := by
  have hother : ∀ n : Nonterminal, n.isOtherType = true → ∀ way ∈ n.ways,
      way.head?.any (·.isOneOf Terminal.isOther Nonterminal.isOtherType) = true := by
    intro n hn
    cases n <;> first | exact absurd hn (by decide) | decide
  obtain ⟨l, ls', place', t, rfl, hmatch, hplace', ht⟩ := h.exists_first hother hfirst hplace
  simp only [Terminal.isOther, Bool.and_eq_true, decide_eq_true_eq, Bool.not_eq_true'] at ht
  refine ⟨l, ls', rfl, hmatch.kind_ne_struct hplace' ht.1.1, fun hl => ht.1.2 ?_, ?_⟩
  · simpa [hl] using (hmatch.iff_terminal (P := (· == .newline)) (by decide)).symm
  · rw [hmatch.iff_terminal (P := Terminal.closes) (by decide), ht.2]

theorem typeSpec_ways : ∀ n ∈ [Nonterminal.typeDef, .aliasDecl], ∀ way ∈ n.ways,
    n = .typeDef ∧ way = [.terminal .identifier, .nonterminal .simpleType] ∨
      ∃ rest, way = .terminal .identifier :: rest ∧
        rest.head?.any (·.isOneOf Terminal.isOther Nonterminal.isOtherType) = true := by
  have hall : ∀ n ∈ [Nonterminal.typeDef, .aliasDecl], ∀ way ∈ n.ways,
      n = .typeDef ∧ way = [.terminal .identifier, .nonterminal .simpleType] ∨
        way.head? = some (.terminal .identifier) ∧
          way.tail.head?.any (·.isOneOf Terminal.isOther Nonterminal.isOtherType) = true := by
    decide
  intro n hn way hway
  refine (hall n hn way hway).imp_right fun ⟨hhead, hrest⟩ => ⟨way.tail, ?_, hrest⟩
  cases way <;> cases hhead
  rfl

theorem typeSpec_struct {leaf : Tree} {text : List Char}
    {extras : List Tree} (hleaf : leaf.IsLeaf .identifier text) (hextras : Extras extras ls)
    (h : Derives place [.nonterminal .structType] trees ls') (summary : Summary)
    {extras' : List Tree} {els : List Lexeme} (hextras' : Extras extras' els)
    (span : Span) (chars : List Char) :
    Outline.typeSpec (.phrase .typeDef span chars (Outline.ofTrees (some .typeDef)
      (leaf :: (extras ++ .mk (.nonterminal .simpleType) summary trees :: extras')))) =
        some (.definition (String.ofList text) [] .struct) := by
  cases h with
  | @nonterminal _ _ _ _ summary' children _ _ _ _ _ _ _ hextras'' h =>
  cases h
  obtain ⟨span', hfirst⟩ := ofTrees_leaf (some .typeDef) hleaf (by decide) nofun _
  obtain ⟨span'', text', hstruct⟩ := 
    ofTrees_nonterminal (n := .structType) (some .typeDef) rfl summary' children _
  rw [hfirst, ofTrees_append, ofTrees_extras hextras (by decide), List.nil_append, Outline.ofTrees,
    ofTrees_extras hextras' (by decide), List.append_nil, Outline.ofTree]
  simp only [show Nonterminal.simpleType.isVisible = false from rfl, Bool.false_eq_true, if_false]
  rw [hstruct, List.append_nil, ofTrees_extras hextras'' (by decide), Outline.typeSpec,
    Outline.type]
  rfl

/-- A struct shows as the type that it defines. -/
theorem shown_typeDecl {leaf : Tree} {text : List Char} {extras extras' : List Tree}
    {spec : TypeSpec} {els : List Lexeme} {summary' : Summary} {children : List Tree} 
    (hleaf : leaf.IsLeaf .kwType text) (hextras : Extras extras ls) (hextras' : Extras extras' els)
    (hspec : ∀ span text, Outline.typeSpec (.phrase .typeDef span text
      (Outline.ofTrees (some .typeDef) children)) = some spec) (summary : Summary) :
    shown [.mk (.nonterminal .typeDecl) summary
      (leaf :: (extras ++ .mk (.nonterminal .typeDef) summary' children :: extras'))] = 
        [.types [spec]] := by
  obtain ⟨span, text, hparts⟩ := ofTrees_nonterminal (n := .typeDecl) (some .file) rfl summary
    (leaf :: (extras ++ .mk (.nonterminal .typeDef) summary' children :: extras')) []
  obtain ⟨span', text', hdef⟩ := 
    ofTrees_nonterminal (n := .typeDef) (some .typeDecl) rfl summary' children extras'
  obtain ⟨span'', hfirst⟩ := ofTrees_leaf (some .typeDecl) hleaf (by decide) nofun _
  rw [shown, hparts, hfirst, ofTrees_append, ofTrees_extras hextras (by decide), List.nil_append,
    hdef, ofTrees_extras hextras' (by decide), List.map_cons, Outline.item,
    List.filterMap_cons_none rfl, List.filterMap_cons_some (hspec ..)]
  rfl

theorem struct_or_other : ∀ way ∈ Nonterminal.simpleType.ways,
    way = [.nonterminal .structType] ∨
      way.head?.any (·.isOneOf Terminal.isOther Nonterminal.isOtherType) = true := by
  decide

/-- What is no struct does not have a lexeme `struct` first. -/
theorem not_struct (hextras : Extras trees ls) {t : Lexeme} {ls'' : List Lexeme}
    (hfirst : ∃ l ls₀, ls' = l :: ls₀ ∧ l.kind ≠ .kwStruct ∧ l.terminal ≠ .newline ∧
      l.terminal.closes = false) (heq : outer 0 (ls ++ ls' ++ rest) = t :: ls'')
    (hstruct : t.kind = .kwStruct) : False := by
  obtain ⟨l, ls₀, rfl, hkind, hnewline, hcloses⟩ := hfirst
  obtain ⟨l', ls₁, houter, hl'⟩ := hextras.outer_first hnewline hcloses (ls₀ ++ rest)
  rw [List.append_assoc, List.cons_append, houter] at heq
  cases heq
  rcases hl' with hcomment | rfl
  · exact nomatch (Lexeme.kind_of_terminal hcomment nofun).symm.trans hstruct
  · exact hkind hstruct

theorem declares_typeDecl {way : List Symbol} {children : List Tree}
    (hway : way ∈ Nonterminal.typeDecl.ways) (h : Derives place way children ls)
    (summary : Summary) : Declares [.mk (.nonterminal .typeDecl) summary children] ls := by
  have hways : ∀ way ∈ Nonterminal.typeDecl.ways,
      (∃ n ∈ [Nonterminal.typeDef, .aliasDecl], way = [.terminal .kwType, .nonterminal n]) ∨
        ∃ rest ∈ [[.nonterminal .moreTypeSpecs, .terminal .rightParen], [.terminal .rightParen]],
          way = .terminal .kwType :: .terminal .leftParen :: rest := by decide
  intro rest items hdeclared
  rcases hways way hway with ⟨n, hn, rfl⟩ | ⟨symbols, -, rfl⟩
  · cases h with
    | terminal htype hleaf hextras h =>
    cases h with
    | @nonterminal _ _ way _ summary' _ _ _ _ _ _ hway' hspec hextras' h =>
    cases h
    have hspecs := typeSpec_ways n hn way hway'
    obtain ⟨symbols, rfl⟩ : ∃ rest, way = .terminal .identifier :: rest := by
      rcases hspecs with ⟨-, rfl⟩ | ⟨symbols, rfl, -⟩ <;> exact ⟨_, rfl⟩
    cases hspec with
    | @terminal _ _ name leaf _ extras trees _ _ hname hleaf' hextras'' h =>
    rw [List.cons_append, outer_terminal htype rfl, List.append_assoc] at hdeclared
    obtain ⟨name', t, ls', heq, hname', hstruct, hdeclared⟩ := 
      declared_type (htype.kind_eq nofun) hdeclared
    rcases hextras.comment_or_empty with ⟨rfl, hempty⟩ | ⟨c, hc, hcomment⟩
    · rw [hempty, List.append_assoc, List.cons_append, outer_terminal hname rfl] at heq hdeclared
      obtain ⟨rfl, hrest⟩ := List.cons.inj heq
      rcases hspecs with ⟨rfl, hsymbols⟩ | ⟨symbols', hsymbols, hother⟩
      · cases hsymbols
        obtain ⟨items', hitems', rfl⟩ := Option.map_eq_some_iff.mp hdeclared
        rw [declared_cons (hname.isOrdinary (by decide) rfl), List.append_assoc,
          declared_extras hextras''] at hitems'
        have hitems := declared_of_isCalm h (by decide +kernel) hitems'
        rw [List.append_nil, declared_extras hextras'] at hitems
        cases h with
        | nonterminal hway₂ htype₂ hextras₂ h =>
        cases h
        rcases struct_or_other _ hway₂ with rfl | hother
        · have hspec := typeSpec_struct hleaf' hextras'' htype₂
          simp only [List.append_nil]
          rw [hitems, shown_typeDecl hleaf hextras hextras' (hspec _ hextras₂) summary]
          rfl
        · obtain ⟨l, ls₀, rfl, hfirst⟩ := htype₂.exists_other hother (Place.within_ne_listed _ _)
          rw [List.append_nil] at hrest
          exact (not_struct hextras'' ⟨l, _, rfl, hfirst⟩ hrest hstruct).elim
      · cases hsymbols
        exact (not_struct hextras'' (h.exists_other hother nofun) hrest hstruct).elim
    · obtain ⟨ls'', hls''⟩ := hcomment _
      rw [hls''] at heq
      cases heq
      exact nomatch hc.symm.trans hname'
  · cases h with
    | terminal htype hleaf hextras h =>
    cases h with
    | @terminal _ _ l _ _ _ _ _ _ hmatch =>
    have hparen := hmatch.terminal_of_not_word (by decide)
    rw [List.cons_append, outer_terminal htype rfl, List.append_assoc] at hdeclared
    obtain ⟨name, t, ls', heq, hname, -⟩ := declared_type (htype.kind_eq nofun) hdeclared
    obtain ⟨l', ls'', hfirst, hl'⟩ :=
      hextras.outer_first (l := l) (by simp [hparen]) (by rw [hparen]; rfl) _
    rw [List.cons_append, hfirst] at heq
    cases heq
    rcases hl' with hcomment | rfl
    · exact nomatch hcomment.symm.trans hname
    · exact nomatch hparen.symm.trans hname

/-! ## Files -/

/-- Whether a symbol is an item, part of what repeats items, or between them. -/
def Symbol.isItem : Symbol → Bool
  | .terminal t => t = .newline || t = .semicolon || t = .null
  | .nonterminal n => n.isItem

theorem declares_leaf {l : Lexeme} {t : Terminal} {leaf : Tree} (hmatch : l.Matches place t)
    (hleaf : leaf.IsLeaf t l.text) (ht : (Symbol.terminal t).isItem = true) :
    Declares [leaf] [l] := by
  intro rest items hdeclared
  have hnames : t = .newline ∨ t = .semicolon ∨ t = .null := by
    simpa [Symbol.isItem, or_assoc] using ht
  have hterminal : l.terminal = t := hmatch.terminal_of_not_word (by
    rcases hnames with rfl | rfl | rfl <;> decide)
  have hrest : declared (outer 0 rest) = some items := by
    rcases hnames with rfl | rfl | rfl
    · rwa [List.singleton_append, outer_newline hterminal] at hdeclared
    all_goals
      rwa [List.singleton_append, outer_terminal hmatch rfl,
        declared_cons (Lexeme.kind_of_terminal hterminal nofun ▸ rfl)] at hdeclared
  obtain ⟨summary, rfl, -⟩ := hleaf
  have hshown : shown [.mk (.terminal t) summary []] = [] := by
    rcases hnames with rfl | rfl | rfl <;> rfl
  rw [hrest, hshown]
  rfl

theorem declares_nonterminal {way : List Symbol} {children : List Tree} (hitem : n.isItem = true)
    (hway : way ∈ n.ways) (h : Derives (place.within n) way children ls)
    (ih : (∀ x ∈ way, x.isItem = true) → Declares children ls) (summary : Summary) :
    Declares [.mk (.nonterminal n) summary children] ls := by
  by_cases hvisible : n.isVisible = true
  · by_cases hcalm : n.isCalm = true
    · exact declares_calm hitem hvisible hcalm hway h summary
    · cases n with
      | packageClause => exact declares_packageClause hway h summary
      | functionDecl => exact declares_functionDecl hway h summary
      | typeDecl => exact declares_typeDecl hway h summary
      | varDecl => exact declares_varDecl hway h summary
      | constDecl => exact declares_constDecl hway h _
      | labeledStmt => exact declares_labeledStmt hway h _
      | _ => first | exact absurd hitem (by decide) | exact absurd rfl hcalm | cases hvisible
  · have hways : ∀ way ∈ n.ways, ∀ x ∈ way, x.isItem = true := by
      cases n <;> first | exact absurd hitem (by decide) | exact absurd rfl hvisible | decide
    intro rest items hdeclared
    rw [shown_hidden (by simpa using hvisible)]
    exact ih (hways way hway) rest items hdeclared

theorem declares_of_derives {symbols : List Symbol} (h : Derives place symbols trees ls)
    (hsymbols : ∀ x ∈ symbols, x.isItem = true) : Declares trees ls := by
  induction h with
  | nil => exact declares_nil
  | terminal hmatch hleaf hextras _ ih =>
    obtain ⟨ht, hrest⟩ := List.forall_mem_cons.mp hsymbols
    exact (declares_leaf hmatch hleaf ht).append ((declares_extras hextras).append (ih hrest))
  | nonterminal hway hinner hextras _ ihinner ih =>
    obtain ⟨hn, hrest⟩ := List.forall_mem_cons.mp hsymbols
    exact (declares_nonterminal hn hway hinner ihinner _).append
      ((declares_extras hextras).append (ih hrest))

/-- In every reading of a text its items are those that its lexemes declare. -/
theorem items_of_reading {text : List Char} {tree : Tree} (h : Reading text tree)
    (hls : Lexes .newline text ls) (hdeclared : declared (outer 0 ls) = some items) :
    ((Outline.ofTree none tree).flatMap fun o => o.parts.map Outline.item).filter (!·.isSilent) =
      items := by
  cases h with
  | @file way summary last before trees after bls ls' als hls' hbefore hway htrees hafter hlast =>
  have hsymbols : ∀ way ∈ Nonterminal.file.ways, ∀ x ∈ way, x.isItem = true := by decide
  have hall := (declares_extras hbefore).append
    ((declares_of_derives htrees (hsymbols way hway)).append (declares_extras hafter))
  rw [hls.unique hls', ← List.append_nil (bls ++ _)] at hdeclared
  have hitems := hall [] items hdeclared
  obtain ⟨summary', rfl, -⟩ := hlast
  have hend : Outline.ofTrees (some .file) [.mk (.terminal .endOfText) summary' []] = [] := rfl
  have hfile : ((Outline.ofTree none (.mk (.nonterminal .file) summary
      (before ++ (trees ++ (after ++ [.mk (.terminal .endOfText) summary' []]))))).flatMap
        fun o => o.parts.map Outline.item).filter (!·.isSilent) =
          shown (before ++ (trees ++ after)) := by
    rw [shown, Outline.ofTree]
    simp only [show Nonterminal.file.isVisible = true from rfl, if_true, List.flatMap_cons,
      List.flatMap_nil, List.append_nil, Outline.parts, ofTrees_append, hend]
  rw [hfile]
  simpa [outer, declared] using hitems

/-! ## Packages -/

theorem readItem_of_isSilent {item : Item} (h : item.isSilent = true) (scope : Scope) :
    scope.readItem item = [] := by
  cases item with
  | vars names =>
    have hnames : names.filter (· ≠ "_") = [] := by
      simpa [Item.isSilent] using h
    rw [Scope.readItem, hnames]
    rfl
  | imports | nothing => rfl
  | _ => cases h

theorem flatMap_readItem_filter (scope : Scope) (items : List Item) :
    (items.filter (!·.isSilent)).flatMap scope.readItem = items.flatMap scope.readItem := by
  induction items with
  | nil => rfl
  | cons item items ih =>
    by_cases h : item.isSilent = true
    · rw [List.filter_cons_of_neg (by simp [h]), List.flatMap_cons, readItem_of_isSilent h, ih]
      rfl
    · rw [List.filter_cons_of_pos (by simp [h]), List.flatMap_cons, List.flatMap_cons, ih]

theorem packageName_filter (items : List Item) :
    packageName (items.filter (!·.isSilent)) = packageName items := by
  rw [packageName, packageName, List.filterMap_filter]
  congr 3
  funext item
  cases item with
  | vars names => cases h : (Item.vars names).isSilent <;> rfl
  | _ => rfl

end Interposer.Source

namespace Interposer

open Source

/-- A package is what the lexemes of its file declare, to every parser that finds readings. -/
theorem Package.ofSourceBy_eq_ok {parser : List Char → Option Tree} {text : String}
    {ls : List Lexeme} {items : List Item} (hreads : Reads parser text.toList)
    (hreading : ∃ tree, Reading text.toList tree) (hls : Lexes .newline text.toList ls)
    (hdeclared : declared (outer 0 ls) = some items) (location path : String) :
    ∃ scope : Scope, Package.ofSourceBy parser location text path =
      .ok ⟨packageName items, path, items.flatMap scope.readItem⟩ := by
  obtain ⟨tree, hparser, hcost⟩ := hreads.complete hreading
  have hitems := items_of_reading (hreads.sound tree hparser hcost) hls hdeclared
  generalize hall : ((Outline.ofTree none tree).flatMap fun o => o.parts.map Outline.item) = all
    at hitems
  have hparse : parseBy parser text.toList = .ok all := by
    rw [parseBy, hparser]
    simp only [hcost, hall]
    rfl
  refine ⟨⟨text.toList, path, importEntries all, []⟩, ?_⟩
  rw [ofSourceBy, hparse, ← hitems, packageName_filter, flatMap_readItem_filter]

end Interposer
