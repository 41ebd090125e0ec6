import Interposer.Proofs.Source.Items
import Interposer.Proofs.Source.Meaning
import Interposer.Proofs.Source.Scanning
import Mathlib.Data.List.TakeWhile

/-! The names that a file declares. By the grammar they are the identifiers in its declarations at
top level, one for each type and function and any number in a specification of variables or of
constants (`Tree.declared`). The loader finds them, and nothing else but the commas between the
names of constants, each of which it takes for the name of another constant
(`Package.declaredNamesLaws`). -/

namespace Interposer

inductive DeclarationKind where
  | type
  | typeAlias
  | var
  | const
  | func
  deriving DecidableEq

def Declaration.kind : Declaration → DeclarationKind
  | .type .. => .type
  | .typeAlias .. => .typeAlias
  | .var _ => .var
  | .const _ => .const
  | .func _ => .func

namespace Source

/-! ## Names by the grammar -/

mutual

/-- The identifiers at the top of a tree, with those in lists of names. -/
def Tree.names : Tree → List String
  | .mk (.terminal .identifier) summary _ => [String.ofList (summary.start.textTo summary.stop)]
  | .mk (.nonterminal .moreNames) _ children => Tree.namesOf children
  | _ => []

def Tree.namesOf : List Tree → List String
  | [] => []
  | tree :: rest => tree.names ++ Tree.namesOf rest

end

/-- What is made up of declarations at top level and of what stands between them. -/
def Nonterminal.holdsDeclarations : Nonterminal → Bool
  | .file | .moreItems | .statement | .simpleStmt | .constDecl | .moreConstSpecs | .varDecl
  | .varSpecs | .moreVarSpecs | .typeDecl | .moreTypeSpecs => true
  | _ => false

mutual

/-- What a tree declares at top level, where `listed` is what the names of a specification of
constants amount to. Nothing in the bodies of functions and in expressions counts. -/
def Tree.declared (listed : List String → List String) : Tree → List (DeclarationKind × String)
  | .mk (.nonterminal n) _ children =>
    match n with
    | .typeDef => (Tree.namesOf children).map (.type, ·)
    | .aliasDecl => (Tree.namesOf children).map (.typeAlias, ·)
    | .functionDecl => (Tree.namesOf children).map (.func, ·)
    | .varSpec => ((Tree.namesOf children).filter (· ≠ "_")).map (.var, ·)
    | .constSpec => ((listed (Tree.namesOf children)).filter (· ≠ "_")).map (.const, ·)
    | n => if n.holdsDeclarations then Tree.declaredOf listed children else []
  | _ => []

def Tree.declaredOf (listed : List String → List String) :
    List Tree → List (DeclarationKind × String)
  | [] => []
  | tree :: rest => tree.declared listed ++ Tree.declaredOf listed rest

end

variable {trees trees' children : List Tree} {ls ls' : List Lexeme} {place : Place}
  {n : Nonterminal} {within : Option Nonterminal} {symbols way : List Symbol}
  {listed : List String → List String}

theorem namesOf_append (trees trees' : List Tree) :
    Tree.namesOf (trees ++ trees') = Tree.namesOf trees ++ Tree.namesOf trees' := by
  induction trees with
  | nil => rfl
  | cons t ts ih => rw [List.cons_append, Tree.namesOf, Tree.namesOf, ih, List.append_assoc]

theorem declaredOf_append (trees trees' : List Tree) : Tree.declaredOf listed (trees ++ trees') =
    Tree.declaredOf listed trees ++ Tree.declaredOf listed trees' := by
  induction trees with
  | nil => rfl
  | cons t ts ih => rw [List.cons_append, Tree.declaredOf, Tree.declaredOf, ih, List.append_assoc]

theorem namesOf_extras (h : Extras trees ls) : Tree.namesOf trees = [] := by
  induction h with
  | nil => rfl
  | newline _ ih => exact ih
  | comment hleaf _ ih =>
    obtain ⟨summary, rfl, -⟩ := hleaf
    rw [Tree.namesOf, ih]
    rfl

theorem declaredOf_extras (h : Extras trees ls) : Tree.declaredOf listed trees = [] := by
  induction h with
  | nil => rfl
  | newline _ ih => exact ih
  | comment hleaf _ ih =>
    obtain ⟨summary, rfl, -⟩ := hleaf
    rw [Tree.declaredOf, ih]
    rfl

/-! ### Trees one by one -/

section Steps

variable {tree leaf : Tree} {extras : List Tree} {els : List Lexeme} {t : Terminal}
  {text : List Char}

theorem ofTrees_step (hextras : Extras extras els) (hwithin : within ≠ some .packageClause) :
    Outline.ofTrees within (tree :: (extras ++ trees)) =
      Outline.ofTree within tree ++ Outline.ofTrees within trees := by
  rw [Outline.ofTrees, ofTrees_append, ofTrees_extras hextras hwithin, List.nil_append]

theorem namesOf_step (hextras : Extras extras els) :
    Tree.namesOf (tree :: (extras ++ trees)) = tree.names ++ Tree.namesOf trees := by
  rw [Tree.namesOf, namesOf_append, namesOf_extras hextras, List.nil_append]

theorem declaredOf_step (hextras : Extras extras els) :
    Tree.declaredOf listed (tree :: (extras ++ trees)) =
      tree.declared listed ++ Tree.declaredOf listed trees := by
  rw [Tree.declaredOf, declaredOf_append, declaredOf_extras hextras, List.nil_append]

theorem ofTree_leaf (h : leaf.IsLeaf t text) (hvisible : t.isVisible = true)
    (hcomment : t ≠ .comment) (hnewline : t ≠ .newline) (within : Option Nonterminal) :
    ∃ span, Outline.ofTree within leaf = [.token t span text] := by
  have hkeeps : Outline.keeps within t = true := by simp [Outline.keeps, hvisible, hcomment]
  obtain ⟨span, hfirst⟩ := ofTrees_leaf within h hkeeps hnewline []
  exact ⟨span, (List.append_nil _).symm.trans hfirst⟩

theorem ofTree_phrase (hvisible : n.isVisible = true) (summary : Summary)
    (within : Option Nonterminal) : ∃ span text,
      Outline.ofTree within (.mk (.nonterminal n) summary children) =
        [.phrase n span text (Outline.ofTrees (some n) children)] := by
  obtain ⟨span, text, hparts⟩ := ofTrees_nonterminal within hvisible summary children []
  exact ⟨span, text, (List.append_nil _).symm.trans hparts⟩

theorem ofTree_hidden (hhidden : n.isVisible = false) (summary : Summary)
    (within : Option Nonterminal) : Outline.ofTree within (.mk (.nonterminal n) summary children) =
      Outline.ofTrees within children := by
  rw [Outline.ofTree]
  simp only [hhidden, Bool.false_eq_true, if_false]

end Steps

theorem names_leaf {leaf : Tree} {text : List Char} (h : leaf.IsLeaf .identifier text) :
    leaf.names = [String.ofList text] := by
  obtain ⟨summary, rfl, htext⟩ := h
  rw [Tree.names, htext nofun]

theorem names_of_ne_identifier {leaf : Tree} {t : Terminal} {text : List Char}
    (h : leaf.IsLeaf t text) (ht : t ≠ .identifier) : leaf.names = [] := by
  obtain ⟨summary, rfl, -⟩ := h
  cases t <;> first | rfl | exact absurd rfl ht

theorem names_of_ne_moreNames (hn : n ≠ .moreNames) (summary : Summary) :
    (Tree.mk (.nonterminal n) summary children).names = [] := by
  cases n <;> first | rfl | exact absurd rfl hn

theorem declared_leaf {leaf : Tree} {t : Terminal} {text : List Char} (h : leaf.IsLeaf t text) :
    leaf.declared listed = [] := by
  obtain ⟨summary, rfl, -⟩ := h
  rfl

theorem declared_of_holds (h : n.holdsDeclarations = true) (summary : Summary) :
    (Tree.mk (.nonterminal n) summary children).declared listed =
      Tree.declaredOf listed children := by
  cases n <;> first | rfl | cases h

/-- Whether no name shows in a symbol. -/
def Symbol.isNameless : Symbol → Bool
  | .terminal t => t ≠ .identifier
  | .nonterminal n => n ≠ .moreNames

theorem namesOf_of_isNameless (h : Derives place symbols trees ls)
    (hsymbols : ∀ x ∈ symbols, x.isNameless = true) : Tree.namesOf trees = [] := by
  induction h with
  | nil => rfl
  | terminal _ hleaf hextras _ ih =>
    obtain ⟨ht, hrest⟩ := List.forall_mem_cons.mp hsymbols
    rw [namesOf_step hextras, names_of_ne_identifier hleaf (of_decide_eq_true ht), ih hrest]
    rfl
  | nonterminal _ _ hextras _ _ ih =>
    obtain ⟨hn, hrest⟩ := List.forall_mem_cons.mp hsymbols
    rw [namesOf_step hextras, names_of_ne_moreNames (of_decide_eq_true hn), ih hrest]
    rfl

/-! ## Lists of names -/

/-- Commas and identifiers are written as such. -/
structure Lexeme.Proper (l : Lexeme) : Prop where
  comma : l.terminal = .comma → l.text = [',']
  identifier : l.terminal = .identifier → IsWord l.text

/-- What shows of a list of names after the first one. -/
inductive NameTail : List Outline → List String → Prop
  | nil : NameTail [] []
  | cons {span span' : Span} {w : List Char} {os : List Outline} {names : List String} :
      NameTail os names →
      NameTail (.token .comma span [','] :: .token .identifier span' w :: os)
        (String.ofList w :: names)

namespace NameTail

variable {os os' : List Outline} {names names' : List String}

theorem append (h : NameTail os names) (h' : NameTail os' names') :
    NameTail (os ++ os') (names ++ names') := by
  induction h with
  | nil => exact h'
  | cons _ ih => exact .cons ih

/-- The names at the beginning of a declaration are a list of names. -/
theorem leadingNames (h : NameTail os names) {rest : List Outline}
    (hrest : ∀ name, Outline.leadingNames (name :: rest) = [name]) (name : Outline) :
    Outline.leadingNames (name :: (os ++ rest)) = name :: os := by
  induction h generalizing name with
  | nil => exact hrest name
  | cons _ ih =>
    rw [List.cons_append, List.cons_append, Outline.leadingNames, ih]
    rfl

theorem map_text (h : NameTail os names) :
    os.map Outline.text = names.flatMap fun name => [",", name] := by
  induction h with
  | nil => rfl
  | cons _ ih =>
    rw [List.map_cons, List.map_cons, ih]
    rfl

theorem textsOf_identifier (h : NameTail os names) : Outline.textsOf .identifier os = names := by
  induction h with
  | nil => rfl
  | cons _ ih => exact congrArg (_ :: ·) ih

/-- Lists of names show as such. -/
theorem of_derives (h : Derives place symbols trees ls)
    (hsymbols : symbols = [.terminal .comma, .terminal .identifier] ∨
      ∀ x ∈ symbols, x = .nonterminal .moreNames)
    (hls : ∀ l ∈ ls, l.Proper) (hwithin : within ≠ some .packageClause) :
    NameTail (Outline.ofTrees within trees) (Tree.namesOf trees) := by
  have hways : ∀ way ∈ Nonterminal.moreNames.ways,
      way = [.terminal .comma, .terminal .identifier] ∨
        ∀ x ∈ way, x = .nonterminal .moreNames := by decide
  induction h with
  | nil => exact .nil
  | terminal hcomma hleaf hextras h =>
    rcases hsymbols with heq | hall
    · cases heq
      cases h with
      | terminal _ hleaf' hextras' h =>
        cases h
        have htext := (hls _ List.mem_cons_self).comma (hcomma.terminal_of_not_word (by decide))
        obtain ⟨span, hfirst⟩ := ofTree_leaf hleaf rfl (by decide) (by decide) within
        obtain ⟨span', hsecond⟩ := ofTree_leaf hleaf' rfl (by decide) (by decide) within
        rw [ofTrees_step hextras hwithin, hfirst, ofTrees_step hextras' hwithin, hsecond, htext,
          namesOf_step hextras, names_of_ne_identifier hleaf (by decide), namesOf_step hextras',
          names_leaf hleaf']
        exact .cons .nil
    · cases hall _ List.mem_cons_self
  | nonterminal hway _ hextras _ ihinner ih =>
    rcases hsymbols with heq | hall
    · cases heq
    · obtain ⟨hn, hrest⟩ := List.forall_mem_cons.mp hall
      cases hn
      obtain ⟨hinner, hls⟩ := List.forall_mem_append.mp hls
      obtain ⟨-, hls⟩ := List.forall_mem_append.mp hls
      rw [ofTrees_step hextras hwithin, ofTree_hidden rfl, namesOf_step hextras, Tree.names]
      exact (ihinner (hways _ hway) hinner).append (ih (.inr hrest) hls)

end NameTail

theorem Derives.split {symbols' : List Symbol} (h : Derives place (symbols ++ symbols') trees ls) :
    ∃ place' trees₁ trees₂ ls₁ ls₂, trees = trees₁ ++ trees₂ ∧ ls = ls₁ ++ ls₂ ∧
      Derives place symbols trees₁ ls₁ ∧ Derives place' symbols' trees₂ ls₂ := by
  induction symbols generalizing place trees ls with
  | nil => exact ⟨_, [], trees, [], ls, rfl, rfl, .nil, h⟩
  | cons x symbols ih =>
    cases h with
    | terminal hmatch hleaf hextras h =>
      obtain ⟨place', trees₁, trees₂, ls₁, ls₂, rfl, rfl, h₁, h₂⟩ := ih h
      exact ⟨place', _, trees₂, _, ls₂, by simp, by simp, .terminal hmatch hleaf hextras h₁, h₂⟩
    | @nonterminal _ n _ _ summary children extras _ _ _ _ hway hinner hextras h =>
      obtain ⟨place', trees₁, trees₂, ls₁, ls₂, rfl, rfl, h₁, h₂⟩ := ih h
      exact ⟨place', .mk (.nonterminal n) summary children :: (extras ++ trees₁), trees₂, _, ls₂,
        by simp, by simp, .nonterminal hway hinner hextras h₁, h₂⟩

/-- Names, and then nothing that could be taken for more of them. -/
def BeginsWithNames (way : List Symbol) : Prop :=
  ∃ more rest, way = (.terminal .identifier :: more) ++ rest ∧
    (∀ x ∈ more, x = .nonterminal .moreNames) ∧ (∀ x ∈ rest, x.isNameless = true) ∧
    ∀ x ∈ rest.head?, x ∈ [.terminal .assign, .nonterminal .parenType, .nonterminal .simpleType]

theorem beginsWithNames_of_mem : ∀ n ∈ [Nonterminal.constSpec, .varSpec], ∀ way ∈ n.ways,
    BeginsWithNames way := by
  have hall : ∀ n ∈ [Nonterminal.constSpec, .varSpec], ∀ way ∈ n.ways, ∃ k ∈ [1, 2],
      way.take 1 = [.terminal .identifier] ∧
      (∀ x ∈ (way.take k).tail, x = .nonterminal .moreNames) ∧
      (∀ x ∈ way.drop k, x.isNameless = true) ∧ ∀ x ∈ (way.drop k).head?,
        x ∈ [.terminal .assign, .nonterminal .parenType, .nonterminal .simpleType] := by
    decide +kernel
  intro n hn way hway
  obtain ⟨k, hk, hfirst, hmore, hrest, hhead⟩ := hall n hn way hway
  refine ⟨(way.take k).tail, way.drop k, ?_, hmore, hrest, hhead⟩
  cases way with
  | nil => cases hfirst
  | cons x way =>
    cases hfirst
    simp only [List.mem_cons, List.not_mem_nil, or_false] at hk
    rcases hk with rfl | rfl
    · rfl
    · exact congrArg (_ :: ·) (List.take_append_drop 1 way).symm

/-- What shows of a specification that begins with names. -/
theorem exists_nameTail (hway : BeginsWithNames way) (h : Derives place way children ls)
    (hls : ∀ l ∈ ls, l.Proper) (hwithin : within ≠ some .packageClause) :
    ∃ span w os names rest,
      Outline.ofTrees within children = .token .identifier span w :: (os ++ rest) ∧
        NameTail os names ∧ (∀ name, Outline.leadingNames (name :: rest) = [name]) ∧
        Tree.namesOf children = String.ofList w :: names := by
  obtain ⟨more, rest, rfl, hmore, hnameless, hhead⟩ := hway
  obtain ⟨place', trees₁, trees₂, ls₁, ls₂, rfl, rfl, h₁, h₂⟩ := h.split
  cases h₁ with
  | @terminal _ _ name leaf _ extras trees els ls₁ _ hleaf hextras h₁ =>
    obtain ⟨span, hfirst⟩ := ofTree_leaf hleaf rfl (by decide) (by decide) within
    obtain ⟨hls, -⟩ := List.forall_mem_append.mp hls
    obtain ⟨-, hls⟩ := List.forall_mem_cons.mp hls
    obtain ⟨-, hls⟩ := List.forall_mem_append.mp hls
    refine ⟨span, name.text, Outline.ofTrees within trees, Tree.namesOf trees,
      Outline.ofTrees within trees₂, ?_, .of_derives h₁ (.inr hmore) hls hwithin, ?_, ?_⟩
    · rw [ofTrees_append, ofTrees_step hextras hwithin, hfirst]
      rfl
    · intro name
      cases rest with
      | nil => cases h₂; rfl
      | cons x rest => exact leadingNames_of_type h₂ (hhead x rfl) hwithin name
    · rw [namesOf_append, namesOf_of_isNameless h₂ hnameless, List.append_nil,
        namesOf_step hextras, names_leaf hleaf]
      rfl

/-! ## Declarations -/

def TypeSpec.kind : TypeSpec → DeclarationKind
  | .definition .. => .type
  | .synonym .. => .typeAlias

/-- What an item declares. -/
def Item.names : Item → List (DeclarationKind × String)
  | .types specs => specs.map fun spec => (spec.kind, spec.name)
  | .vars names => (names.filter (· ≠ "_")).map (.var, ·)
  | .consts names => (names.filter (· ≠ "_")).map (.const, ·)
  | .func name => [(.func, name)]
  | .package _ | .imports _ | .nothing => []

theorem map_readItem (scope : Scope) (item : Item) :
    (scope.readItem item).map (fun d => (d.kind, d.name)) = item.names := by
  cases item with
  | types specs =>
    rw [Scope.readItem, List.map_map]
    apply List.map_congr_left
    intro spec _
    cases spec <;> rfl
  | vars names | consts names =>
    rw [Scope.readItem, List.map_map]
    rfl
  | _ => rfl

theorem map_flatMap_readItem (scope : Scope) (items : List Item) :
    (items.flatMap scope.readItem).map (fun d => (d.kind, d.name)) = items.flatMap Item.names := by
  rw [List.map_flatMap]
  exact List.flatMap_congr fun item _ => map_readItem scope item

/-- What the loader takes the names of a specification of constants for. -/
def withCommas (names : List String) : List String := names.intersperse ","

theorem withCommas_cons (name : String) (names : List String) :
    withCommas (name :: names) = name :: names.flatMap fun name => [",", name] := by
  induction names generalizing name with
  | nil => rfl
  | cons next names ih =>
    rw [withCommas, List.intersperse_cons_cons, List.flatMap_cons, ← withCommas, ih]
    rfl

theorem constNames_of_derives (hway : way ∈ Nonterminal.constSpec.ways)
    (h : Derives place way children ls) (hls : ∀ l ∈ ls, l.Proper) (span : Span)
    (text : List Char) : Outline.constNames (.phrase .constSpec span text
      (Outline.ofTrees (some .constSpec) children)) = withCommas (Tree.namesOf children) := by
  have hwithin : some Nonterminal.constSpec ≠ some .packageClause := by decide
  obtain ⟨span', w, os, names, rest, hparts, htail, hrest, hnames⟩ :=
    exists_nameTail (beginsWithNames_of_mem _ (by decide) way hway) h hls hwithin
  rw [Outline.constNames, Outline.parts, hparts, htail.leadingNames hrest, List.map_cons,
    htail.map_text, hnames, withCommas_cons]
  rfl

theorem varNames_of_derives (hway : way ∈ Nonterminal.varSpec.ways)
    (h : Derives place way children ls) (hls : ∀ l ∈ ls, l.Proper) (span : Span)
    (text : List Char) : Outline.varNames (.phrase .varSpec span text
      (Outline.ofTrees (some .varSpec) children)) = Tree.namesOf children := by
  have hwithin : some Nonterminal.varSpec ≠ some .packageClause := by decide
  obtain ⟨span', w, os, names, rest, hparts, htail, hrest, hnames⟩ :=
    exists_nameTail (beginsWithNames_of_mem _ (by decide) way hway) h hls hwithin
  rw [Outline.varNames, Outline.parts, hparts, htail.leadingNames hrest, hnames]
  exact congrArg (_ :: ·) htail.textsOf_identifier

def typeSymbols : List Symbol := [.nonterminal .parenType, .nonterminal .simpleType]

theorem isNameless_of_mem_typeSymbols {x : Symbol} (hx : x ∈ typeSymbols) :
    ∀ x' ∈ [x], x'.isNameless = true := by
  have hall : ∀ x ∈ typeSymbols, x.isNameless = true := by decide
  exact List.forall_mem_singleton.mpr (hall x hx)

/-- A type shows as one part. -/
theorem ofTrees_type {x : Symbol} (hx : x ∈ typeSymbols)
    (h : Derives place [x] trees ls) (hwithin : within ≠ some .packageClause) :
    ∃ o, Outline.ofTrees within trees = [o] := by
  have hlast : ∀ {tree : Tree} {extras : List Tree} {els : List Lexeme},
      Extras extras els → (∃ o, Outline.ofTree within tree = [o]) →
        ∃ o, Outline.ofTrees within (tree :: (extras ++ [])) = [o] := by
    rintro tree extras els hextras ⟨o, ho⟩
    rw [ofTrees_step hextras hwithin, ho]
    exact ⟨o, rfl⟩
  have hphrase : ∀ {n : Nonterminal} {summary : Summary} {children : List Tree},
      n.isVisible = true → ∃ o, Outline.ofTree within (.mk (.nonterminal n) summary children) =
        [o] := by
    intro n summary children hvisible
    obtain ⟨span, text, hparts⟩ := @ofTree_phrase children n hvisible summary within
    exact ⟨_, hparts⟩
  cases h with
  | terminal => simp [typeSymbols] at hx
  | @nonterminal _ n way _ _ _ _ _ _ _ _ hway hinner hextras h =>
  cases h
  by_cases hn : n = .parenType
  · subst hn
    exact hlast hextras (hphrase rfl)
  obtain rfl : n = .simpleType := by simpa [typeSymbols, hn] using hx
  refine hlast hextras ?_
  rw [ofTree_hidden rfl]
  rcases simpleType_ways way hway with rfl | ⟨n, hn, rfl⟩
  · cases hinner with
    | terminal _ hleaf hextras h =>
      cases h
      obtain ⟨span, hfirst⟩ := ofTree_leaf hleaf rfl (by decide) (by decide) within
      exact hlast hextras ⟨_, hfirst⟩
  · have hforms : ∀ n ∈ typeForms, n.isVisible = true := by decide
    cases hinner with
    | nonterminal _ _ hextras h =>
      cases h
      exact hlast hextras (hphrase (hforms n hn))

theorem typeSpec_forms : (∀ way ∈ Nonterminal.typeDef.ways, ∃ x ∈ typeSymbols,
      way = [.terminal .identifier, x] ∨
        way = [.terminal .identifier, .nonterminal .typeParams, x]) ∧
    ∀ way ∈ Nonterminal.aliasDecl.ways, ∃ x ∈ typeSymbols,
      way = [.terminal .identifier, .terminal .assign, x] := by
  decide

/-- What a specification of a type declares, if it is one. -/
def specNames (o : Outline) : List (DeclarationKind × String) :=
  (Outline.typeSpec o).toList.map fun spec => (spec.kind, spec.name)

theorem specNames_typeDef (hway : way ∈ Nonterminal.typeDef.ways)
    (h : Derives place way children ls) (summary : Summary) (span : Span) (text : List Char) :
    specNames (.phrase .typeDef span text (Outline.ofTrees (some .typeDef) children)) =
      (Tree.mk (.nonterminal .typeDef) summary children).declared listed := by
  have hwithin : some Nonterminal.typeDef ≠ some .packageClause := by decide
  rw [Tree.declared]
  obtain ⟨x, hx, rfl | rfl⟩ := typeSpec_forms.1 way hway
  · cases h with
    | terminal _ hleaf hextras h =>
      obtain ⟨span', hfirst⟩ := ofTree_leaf hleaf rfl (by decide) (by decide) (some .typeDef)
      obtain ⟨o, ho⟩ := ofTrees_type hx h hwithin
      rw [ofTrees_step hextras hwithin, hfirst, ho, namesOf_step hextras, names_leaf hleaf,
        namesOf_of_isNameless h (isNameless_of_mem_typeSymbols hx), List.singleton_append,
        specNames, Outline.typeSpec]
      rfl
  · cases h with
    | terminal _ hleaf hextras h =>
      have hnameless := namesOf_of_isNameless h
        (List.forall_mem_cons.mpr ⟨rfl, isNameless_of_mem_typeSymbols hx⟩)
      cases h with
      | @nonterminal _ _ _ _ summary' children' _ _ _ _ _ _ _ hextras' h =>
        obtain ⟨span', hfirst⟩ := ofTree_leaf hleaf rfl (by decide) (by decide) (some .typeDef)
        obtain ⟨span'', text', hparams⟩ :=
          @ofTree_phrase children' .typeParams rfl summary' (some .typeDef)
        obtain ⟨o, ho⟩ := ofTrees_type hx h hwithin
        rw [ofTrees_step hextras hwithin, hfirst, ofTrees_step hextras' hwithin, hparams, ho,
          namesOf_step hextras, names_leaf hleaf, hnameless]
        rfl

theorem specNames_aliasDecl (hway : way ∈ Nonterminal.aliasDecl.ways)
    (h : Derives place way children ls) (summary : Summary) (span : Span) (text : List Char) :
    specNames (.phrase .aliasDecl span text (Outline.ofTrees (some .aliasDecl) children)) =
      (Tree.mk (.nonterminal .aliasDecl) summary children).declared listed := by
  have hwithin : some Nonterminal.aliasDecl ≠ some .packageClause := by decide
  rw [Tree.declared]
  obtain ⟨x, hx, rfl⟩ := typeSpec_forms.2 way hway
  cases h with
  | terminal _ hleaf hextras h =>
    have hnameless := namesOf_of_isNameless h
      (List.forall_mem_cons.mpr ⟨rfl, isNameless_of_mem_typeSymbols hx⟩)
    cases h with
    | terminal _ hleaf' hextras' h =>
      obtain ⟨span', hfirst⟩ := ofTree_leaf hleaf rfl (by decide) (by decide) (some .aliasDecl)
      obtain ⟨span'', hsecond⟩ := ofTree_leaf hleaf' rfl (by decide) (by decide) (some .aliasDecl)
      obtain ⟨o, ho⟩ := ofTrees_type hx h hwithin
      rw [ofTrees_step hextras hwithin, hfirst, ofTrees_step hextras' hwithin, hsecond, ho,
        namesOf_step hextras, names_leaf hleaf, hnameless]
      rfl

theorem names_functionDecl (hway : way ∈ Nonterminal.functionDecl.ways)
    (h : Derives place way children ls) (summary : Summary) (span : Span) (text : List Char) :
    (Outline.item (.phrase .functionDecl span text
      (Outline.ofTrees (some .functionDecl) children))).names =
        (Tree.mk (.nonterminal .functionDecl) summary children).declared listed := by
  have hways : ∀ way ∈ Nonterminal.functionDecl.ways,
      way.take 2 = [.terminal .kwFunc, .terminal .identifier] ∧
        ∀ x ∈ way.drop 2, x.isNameless = true := by decide +kernel
  have hwithin : some Nonterminal.functionDecl ≠ some .packageClause := by decide
  obtain ⟨hfirst, hnameless⟩ := hways way hway
  rw [← List.take_append_drop 2 way, hfirst] at h
  cases h with
  | terminal _ hleaf hextras h =>
    cases h with
    | terminal _ hleaf' hextras' h =>
      obtain ⟨span', hfirst⟩ := ofTree_leaf hleaf rfl (by decide) (by decide) (some .functionDecl)
      obtain ⟨span'', hsecond⟩ :=
        ofTree_leaf hleaf' rfl (by decide) (by decide) (some .functionDecl)
      rw [ofTrees_step hextras hwithin, hfirst, ofTrees_step hextras' hwithin, hsecond,
        Tree.declared, namesOf_step hextras, names_of_ne_identifier hleaf (by decide),
        namesOf_step hextras', names_leaf hleaf', namesOf_of_isNameless h hnameless]
      rfl

/-! ## Walks -/

/-- What is found in the parts that show is what the trees declare, if it is in each part that may
show there. -/
theorem flatMap_of_derives {isPart : Nonterminal → Bool}
    {find : Outline → List (DeclarationKind × String)}
    (htoken : ∀ t span text, find (.token t span text) = [])
    (hhidden : ∀ n, isPart n = true → n.isVisible = false → n.holdsDeclarations = true ∧
      ∀ way ∈ n.ways, ∀ x ∈ way, x.isOneOf (fun _ => true) isPart = true)
    (hphrase : ∀ n place way children ls, isPart n = true → n.isVisible = true → way ∈ n.ways →
      Derives place way children ls → (∀ l ∈ ls, l.Proper) → ∀ summary span text,
        find (.phrase n span text (Outline.ofTrees (some n) children)) =
          (Tree.mk (.nonterminal n) summary children).declared listed)
    (hwithin : within ≠ some .packageClause) (h : Derives place symbols trees ls)
    (hsymbols : ∀ x ∈ symbols, x.isOneOf (fun _ => true) isPart = true)
    (hls : ∀ l ∈ ls, l.Proper) :
    (Outline.ofTrees within trees).flatMap find = Tree.declaredOf listed trees := by
  induction h with
  | nil => rfl
  | @terminal _ t _ leaf _ _ _ _ _ _ hleaf hextras _ ih =>
    obtain ⟨-, hsymbols⟩ := List.forall_mem_cons.mp hsymbols
    obtain ⟨-, hls⟩ := List.forall_mem_cons.mp hls
    obtain ⟨-, hls⟩ := List.forall_mem_append.mp hls
    have hnone : (Outline.ofTree within leaf).flatMap find = [] := by
      obtain ⟨summary, rfl, -⟩ := hleaf
      rw [Outline.ofTree]
      split
      · rw [List.flatMap_cons, htoken]
        rfl
      · rfl
    rw [ofTrees_step hextras hwithin, List.flatMap_append, hnone, ih hsymbols hls,
      declaredOf_step hextras, declared_leaf hleaf]
  | @nonterminal _ n _ _ summary children _ _ _ _ _ hway hinner hextras _ ihinner ih =>
    obtain ⟨hn, hsymbols⟩ := List.forall_mem_cons.mp hsymbols
    obtain ⟨hlsinner, hls⟩ := List.forall_mem_append.mp hls
    obtain ⟨-, hls⟩ := List.forall_mem_append.mp hls
    rw [ofTrees_step hextras hwithin, List.flatMap_append, ih hsymbols hls,
      declaredOf_step hextras]
    refine congrArg (· ++ _) ?_
    by_cases hvisible : n.isVisible = true
    · obtain ⟨span, text, hparts⟩ := @ofTree_phrase children n hvisible summary within
      rw [hparts, List.flatMap_singleton]
      exact hphrase n _ _ _ _ hn hvisible hway hinner hlsinner summary span text
    · rw [Bool.not_eq_true] at hvisible
      obtain ⟨hholds, hways⟩ := hhidden n hn hvisible
      rw [ofTree_hidden hvisible, ihinner (hways _ hway) hlsinner, declared_of_holds hholds]

/-- What is found among the parts of some kind. -/
theorem map_filter_flatMap {α : Type} (parts : List Outline) (k : Outline → List Outline)
    (g : Outline → List String) (q : String → Bool) (label : String → α) :
    (((parts.flatMap k).flatMap g).filter q).map label =
      parts.flatMap fun o => (((k o).flatMap g).filter q).map label := by
  induction parts with
  | nil => rfl
  | cons o parts ih => simp [← ih]

theorem filter_eq_flatMap (parts : List Outline) (p : Outline → Bool) :
    parts.filter p = parts.flatMap fun o => if p o then [o] else [] := by
  induction parts with
  | nil => rfl
  | cons o parts ih => cases h : p o <;> simp [h, ih]

theorem names_constDecl (hway : way ∈ Nonterminal.constDecl.ways)
    (h : Derives place way children ls) (hls : ∀ l ∈ ls, l.Proper) (summary : Summary)
    (span : Span) (text : List Char) :
    (Outline.item (.phrase .constDecl span text
      (Outline.ofTrees (some .constDecl) children))).names =
        (Tree.mk (.nonterminal .constDecl) summary children).declared withCommas := by
  have hways : ∀ way ∈ Nonterminal.constDecl.ways, ∀ x ∈ way,
      x.isOneOf (fun _ => true) (fun n => n = .constSpec || n = .moreConstSpecs) = true := by
    decide
  rw [declared_of_holds rfl, Outline.item, Item.names, filter_eq_flatMap, map_filter_flatMap]
  refine flatMap_of_derives (fun t span text => rfl) ?_ ?_ (by decide) h (hways way hway) hls
  · intro n hn hhidden
    simp only [Bool.or_eq_true, decide_eq_true_eq] at hn
    rcases hn with rfl | rfl
    · cases hhidden
    · decide
  · intro n place way children ls hn hvisible hway h hls summary span text
    simp only [Bool.or_eq_true, decide_eq_true_eq] at hn
    rcases hn with rfl | rfl
    · rw [Tree.declared, ← constNames_of_derives hway h hls span text]
      simp [Outline.isPhrase]
    · cases hvisible

theorem names_varSpec (hway : way ∈ Nonterminal.varSpec.ways) (h : Derives place way children ls)
    (hls : ∀ l ∈ ls, l.Proper) (summary : Summary) (span : Span) (text : List Char) :
    ((Outline.varNames (.phrase .varSpec span text
      (Outline.ofTrees (some .varSpec) children))).filter (· ≠ "_")).map (DeclarationKind.var, ·) =
        (Tree.mk (.nonterminal .varSpec) summary children).declared listed := by
  rw [Tree.declared, varNames_of_derives hway h hls]

/-- Variables in a list. -/
theorem names_varSpecs (hway : way ∈ Nonterminal.varSpecs.ways) (h : Derives place way children ls)
    (hls : ∀ l ∈ ls, l.Proper) (summary : Summary) :
    ((((Outline.ofTrees (some .varSpecs) children).filter (·.isPhrase .varSpec)).flatMap
      Outline.varNames).filter (· ≠ "_")).map (DeclarationKind.var, ·) =
        (Tree.mk (.nonterminal .varSpecs) summary children).declared listed := by
  have hways : ∀ way ∈ Nonterminal.varSpecs.ways, ∀ x ∈ way,
      x.isOneOf (fun _ => true) (fun n => n = .varSpec || n = .moreVarSpecs) = true := by
    decide
  rw [declared_of_holds rfl, filter_eq_flatMap, map_filter_flatMap]
  refine flatMap_of_derives (fun t span text => rfl) ?_ ?_ (by decide) h (hways way hway) hls
  · intro n hn hhidden
    simp only [Bool.or_eq_true, decide_eq_true_eq] at hn
    rcases hn with rfl | rfl
    · cases hhidden
    · decide
  · intro n place way children ls hn hvisible hway h hls summary span text
    simp only [Bool.or_eq_true, decide_eq_true_eq] at hn
    rcases hn with rfl | rfl
    · rw [← names_varSpec hway h hls summary span text]
      simp [Outline.isPhrase]
    · cases hvisible

theorem names_varDecl (hway : way ∈ Nonterminal.varDecl.ways) (h : Derives place way children ls)
    (hls : ∀ l ∈ ls, l.Proper) (summary : Summary) (span : Span) (text : List Char) :
    (Outline.item (.phrase .varDecl span text
      (Outline.ofTrees (some .varDecl) children))).names =
        (Tree.mk (.nonterminal .varDecl) summary children).declared listed := by
  have hways : ∀ way ∈ Nonterminal.varDecl.ways, ∀ x ∈ way,
      x.isOneOf (fun _ => true) (fun n => n = .varSpec || n = .varSpecs) = true := by
    decide
  rw [declared_of_holds rfl, Outline.item, Item.names, Outline.specs, map_filter_flatMap]
  refine flatMap_of_derives (fun t span text => rfl) ?_ ?_ (by decide) h (hways way hway) hls
  · intro n hn hhidden
    simp only [Bool.or_eq_true, decide_eq_true_eq] at hn
    rcases hn with rfl | rfl <;> cases hhidden
  · intro n place way children ls hn _ hway h hls summary span text
    simp only [Bool.or_eq_true, decide_eq_true_eq] at hn
    rcases hn with rfl | rfl
    · rw [← names_varSpec hway h hls summary span text]
      simp [Outline.isPhrase]
    · rw [← names_varSpecs hway h hls summary]
      simp [Outline.isPhrase, Outline.parts]

theorem names_typeDecl (hway : way ∈ Nonterminal.typeDecl.ways) (h : Derives place way children ls)
    (hls : ∀ l ∈ ls, l.Proper) (summary : Summary) (span : Span) (text : List Char) :
    (Outline.item (.phrase .typeDecl span text
      (Outline.ofTrees (some .typeDecl) children))).names =
        (Tree.mk (.nonterminal .typeDecl) summary children).declared listed := by
  have hways : ∀ way ∈ Nonterminal.typeDecl.ways, ∀ x ∈ way, x.isOneOf (fun _ => true)
      (fun n => n = .typeDef || n = .aliasDecl || n = .moreTypeSpecs) = true := by
    decide
  have hitem : ∀ parts : List Outline, (Item.types (parts.filterMap Outline.typeSpec)).names =
      parts.flatMap specNames := by
    intro parts
    induction parts with
    | nil => rfl
    | cons o parts ih =>
      rw [List.flatMap_cons, ← ih, List.filterMap_cons, specNames]
      cases Outline.typeSpec o <;> rfl
  rw [declared_of_holds rfl, Outline.item, hitem]
  refine flatMap_of_derives (fun t span text => rfl) ?_ ?_ (by decide) h (hways way hway) hls
  · intro n hn hhidden
    simp only [Bool.or_eq_true, decide_eq_true_eq] at hn
    rcases hn with (rfl | rfl) | rfl
    · cases hhidden
    · cases hhidden
    · decide
  · intro n place way children ls hn hvisible hway h hls summary span text
    simp only [Bool.or_eq_true, decide_eq_true_eq] at hn
    rcases hn with (rfl | rfl) | rfl
    · exact specNames_typeDef hway h summary span text
    · exact specNames_aliasDecl hway h summary span text
    · cases hvisible

/-! ## Files -/

/-- Phrases at top level that declare nothing. -/
theorem names_of_no_declaration (hn : n.isItem = true) (hvisible : n.isVisible = true)
    (hnone : n ∉ [.constDecl, .varDecl, .typeDecl, .functionDecl]) (summary : Summary)
    (span : Span) (text : List Char) (parts : List Outline) :
    (Outline.item (.phrase n span text parts)).names =
      (Tree.mk (.nonterminal n) summary children).declared listed := by
  cases n with
  | packageClause => rcases parts with _ | ⟨_, _ | ⟨_, _⟩⟩ <;> rfl
  | _ =>
    first
    | rfl
    | exact absurd hn (by decide)
    | exact absurd hvisible (by decide)
    | exact absurd (by decide) hnone

theorem names_of_derives (h : Derives place symbols trees ls)
    (hsymbols : ∀ x ∈ symbols, x.isItem = true) (hls : ∀ l ∈ ls, l.Proper) :
    (Outline.ofTrees (some .file) trees).flatMap (fun o => (Outline.item o).names) =
      Tree.declaredOf withCommas trees := by
  have hparts : ∀ x ∈ symbols, x.isOneOf (fun _ => true) Nonterminal.isItem = true := by
    intro x hx
    have hitem := hsymbols x hx
    cases x <;> first | rfl | exact hitem
  refine flatMap_of_derives (fun t span text => rfl) ?_ ?_ (by decide) h hparts hls
  · intro n hn hhidden
    cases n <;> first | exact absurd hn (by decide) | exact absurd hhidden (by decide) | decide
  · intro n place way children ls hn hvisible hway h hls summary span text
    by_cases hnone : n ∈ [.constDecl, .varDecl, .typeDecl, .functionDecl]
    · simp only [List.mem_cons, List.not_mem_nil, or_false] at hnone
      rcases hnone with rfl | rfl | rfl | rfl
      · exact names_constDecl hway h hls summary span text
      · exact names_varDecl hway h hls summary span text
      · exact names_typeDecl hway h hls summary span text
      · exact names_functionDecl hway h summary span text
    · exact names_of_no_declaration hn hvisible hnone summary span text _

/-- A fold that only ever takes the element at hand ends with one of those, or as it begins. -/
theorem foldl_eq_some {α : Type} {P : α → Prop} {step : Option α → α → Option α}
    (hstep : ∀ best a b, step best a = some b → best = some b ∨ a = b ∧ P b) {b : α} :
    ∀ (l : List α) (best : Option α), l.foldl step best = some b →
      best = some b ∨ b ∈ l ∧ P b := by
  intro l
  induction l with
  | nil => exact fun best h => .inl h
  | cons a l ih =>
    intro best h
    rw [List.foldl_cons] at h
    rcases ih _ h with hbest | ⟨hmem, hb⟩
    · refine (hstep best a b hbest).imp_right ?_
      rintro ⟨rfl, hb⟩
      exact ⟨List.mem_cons_self, hb⟩
    · exact .inr ⟨List.mem_cons_of_mem _ hmem, hb⟩

theorem mem_of_longest {candidates : List (Terminal × Nat)} {token : Terminal × Nat}
    (h : Lexer.longest candidates = some token) : token ∈ candidates ∧ 0 < token.2 := by
  unfold Lexer.longest at h
  refine (foldl_eq_some (P := (0 < ·.2)) ?_ candidates none h).resolve_left ?_
  case refine_2 => exact (Option.some_ne_none token).symm
  intro best candidate token hstep
  cases best with
  | none =>
    dsimp only at hstep
    split at hstep
    · next hpos =>
      cases hstep
      exact .inr ⟨rfl, hpos⟩
    · cases hstep
  | some best =>
    dsimp only at hstep
    split at hstep
    · next hlt =>
      cases hstep
      exact .inr ⟨rfl, Nat.zero_lt_of_lt hlt⟩
    · exact .inl hstep

theorem mem_operatorTable {valid : TerminalSet} {cs : List Char} {t : Terminal} {n : Nat}
    (h : (t, n) ∈ Lexer.operatorsAt valid cs) : (cs.take n, t) ∈ Lexer.operatorTable := by
  obtain ⟨⟨text, t'⟩, hmem, heq⟩ := List.mem_filterMap.mp h
  dsimp only at heq
  split at heq
  · next hvalid =>
    cases heq
    rw [Bool.and_eq_true, List.isPrefixOf_iff_prefix] at hvalid
    rwa [← List.prefix_iff_eq_take.mp hvalid.1]
  · cases heq

theorem isWord_take {cs : List Char} (h : 0 < Lexer.word cs) :
    IsWord (cs.take (Lexer.word cs)) := by
  cases cs with
  | nil => cases h
  | cons c cs =>
    by_cases hc : Text.isWordStart c = true
    · refine ⟨c, cs.takeWhile Text.isWordChar, ?_, hc, fun c' hc' => List.mem_takeWhile_imp hc'⟩
      rw [Lexer.word, if_pos hc, List.take_succ_cons]
      exact congrArg (c :: ·) (List.prefix_iff_eq_take.mp (List.takeWhile_prefix _)).symm
    · rw [Lexer.word, if_neg hc] at h
      cases h

theorem mem_candidates {cs : List Char} {t : Terminal} {n : Nat}
    (h : (t, n) ∈ Lexer.candidates Lexer.anything cs) (ht : t = .comma ∨ t = .identifier) :
    (cs.take n, t) ∈ Lexer.operatorTable ∨ t = .identifier ∧ n = Lexer.word cs := by
  cases cs with
  | nil => cases h
  | cons c cs =>
    simp only [Lexer.candidates, List.mem_append] at h
    rcases h with (h | h) | h
    · obtain ⟨h, -⟩ := List.mem_filter.mp h
      rcases ht with rfl | rfl <;> split_ifs at h <;> simp at h
    · split at h
      · cases List.mem_singleton.mp h
        exact .inr ⟨rfl, rfl⟩
      · cases h
    · exact .inl (mem_operatorTable h)

/-- The lexemes of a text are proper. -/
theorem Lexes.proper {last : Terminal} {cs : List Char} (h : Lexes last cs ls) :
    ∀ l ∈ ls, l.Proper := by
  have htable : ∀ e ∈ Lexer.operatorTable, e.2 ≠ .identifier ∧ (e.2 = .comma → e.1 = [',']) := by
    decide +kernel
  induction h with
  | done => exact nofun
  | @inString last t n cs ls hfound _ ih =>
    refine List.forall_mem_cons.mpr ⟨?_, ih⟩
    have hne : t ≠ .comma ∧ t ≠ .identifier := by
      unfold Lexer.inString at hfound
      repeat' split at hfound
      all_goals cases hfound <;> decide
    exact ⟨fun h => absurd h hne.1, fun h => absurd h hne.2⟩
  | @token last t n cs ls _ hfound _ ih =>
    refine List.forall_mem_cons.mpr ⟨?_, ih⟩
    obtain ⟨hmem, hpos⟩ := mem_of_longest hfound
    constructor
    · rintro rfl
      rcases mem_candidates hmem (.inl rfl) with hoperator | ⟨heq, -⟩
      · exact (htable _ hoperator).2 rfl
      · cases heq
    · rintro rfl
      rcases mem_candidates hmem (.inr rfl) with hoperator | ⟨-, rfl⟩
      · exact absurd rfl (htable _ hoperator).1
      · exact isWord_take hpos
  | newline _ _ ih => exact List.forall_mem_cons.mpr ⟨⟨nofun, nofun⟩, ih⟩
  | space _ _ _ _ ih => exact ih

/-- What stands around the items of a file declares nothing. -/
theorem declared_file {before after : List Tree} {last : Tree} {bls als : List Lexeme}
    (hbefore : Extras before bls) (hafter : Extras after als) (hlast : last.IsLeaf .endOfText [])
    (summary : Summary) :
    (Tree.mk (.nonterminal .file) summary (before ++ (trees ++ (after ++ [last])))).declared
      listed = Tree.declaredOf listed trees := by
  have hend : Tree.declaredOf listed [last] = [] := by
    rw [Tree.declaredOf, declared_leaf hlast]
    rfl
  rw [declared_of_holds rfl, declaredOf_append, declaredOf_extras hbefore, declaredOf_append,
    declaredOf_append, declaredOf_extras hafter, hend, List.nil_append, List.append_nil,
    List.append_nil]

theorem names_of_reading {text : List Char} {tree : Tree} (h : Reading text tree) :
    ((Outline.ofTree none tree).flatMap fun o => o.parts.map Outline.item).flatMap Item.names =
      tree.declared withCommas := by
  cases h with
  | @file way summary last before trees after bls ls als hls hbefore hway htrees hafter hlast =>
  have hsymbols : ∀ way ∈ Nonterminal.file.ways, ∀ x ∈ way, x.isItem = true := by decide
  have hproper : ∀ l ∈ ls, l.Proper := fun l hl =>
    hls.proper l (List.mem_append_right _ (List.mem_append_left _ hl))
  have hwithin : some Nonterminal.file ≠ some .packageClause := by decide
  rw [declared_file hbefore hafter hlast]
  obtain ⟨summary', rfl, -⟩ := hlast
  have hend : Outline.ofTrees (some .file) [.mk (.terminal .endOfText) summary' []] = [] := rfl
  rw [Outline.ofTree]
  simp only [show Nonterminal.file.isVisible = true from rfl, if_true, List.flatMap_cons,
    List.flatMap_nil, List.append_nil, Outline.parts, ofTrees_append, hend,
    ofTrees_extras hbefore hwithin, ofTrees_extras hafter hwithin, List.nil_append]
  rw [List.flatMap_map, names_of_derives htrees (hsymbols way hway) hproper]

/-! ## Identifiers -/

theorem isWord_of_mem_namesOf (h : Derives place symbols trees ls) (hls : ∀ l ∈ ls, l.Proper) :
    ∀ name ∈ Tree.namesOf trees, IsWord name.toList := by
  induction h with
  | nil => exact nofun
  | @terminal _ t l _ _ _ _ _ _ hmatch hleaf hextras _ ih =>
    obtain ⟨hl, hls⟩ := List.forall_mem_cons.mp hls
    obtain ⟨-, hls⟩ := List.forall_mem_append.mp hls
    rw [namesOf_step hextras]
    refine List.forall_mem_append.mpr ⟨?_, ih hls⟩
    by_cases ht : t = .identifier
    · subst ht
      rw [names_leaf hleaf, List.forall_mem_singleton, String.toList_ofList]
      exact hl.identifier hmatch.terminal_eq
    · rw [names_of_ne_identifier hleaf ht]
      exact List.forall_mem_nil _
  | @nonterminal _ n _ _ summary children _ _ _ _ _ _ _ hextras _ ihinner ih =>
    obtain ⟨hinner, hls⟩ := List.forall_mem_append.mp hls
    obtain ⟨-, hls⟩ := List.forall_mem_append.mp hls
    rw [namesOf_step hextras]
    refine List.forall_mem_append.mpr ⟨?_, ih hls⟩
    by_cases hn : n = .moreNames
    · subst hn
      exact ihinner hinner
    · rw [names_of_ne_moreNames hn]
      exact List.forall_mem_nil _

/-- The constant that a comma is taken for. -/
def commaConst : DeclarationKind × String := (.const, ",")

theorem ne_comma_of_isWord {name : String} (h : IsWord name.toList) : name ≠ "," := by
  rintro rfl
  obtain ⟨c, cs, heq, hc, -⟩ := h
  cases heq
  exact absurd hc (by decide)

/-- Without the commas there are only the names. -/
theorem filter_withCommas {names : List String} (h : ∀ name ∈ names, IsWord name.toList) :
    (withCommas names).filter (· ≠ ",") = names := by
  have htail : ∀ names : List String, (∀ name ∈ names, IsWord name.toList) →
      (names.flatMap fun name => [",", name]).filter (· ≠ ",") = names := by
    intro names
    induction names with
    | nil => exact fun _ => rfl
    | cons name names ih =>
      intro h
      obtain ⟨hname, hnames⟩ := List.forall_mem_cons.mp h
      rw [List.flatMap_cons, List.filter_append, ih hnames]
      simp [ne_comma_of_isWord hname]
  cases names with
  | nil => rfl
  | cons name names =>
    obtain ⟨hname, hnames⟩ := List.forall_mem_cons.mp h
    rw [withCommas_cons, List.filter_cons_of_pos (by simpa using ne_comma_of_isWord hname),
      htail names hnames]

/-- Some declarations with those that commas are taken for, and those that the grammar has. -/
structure Differ (found declared : List (DeclarationKind × String)) : Prop where
  filter : found.filter (· ≠ commaConst) = declared
  words : ∀ d ∈ declared, IsWord d.2.toList

namespace Differ

variable {found found' declared declared' : List (DeclarationKind × String)}

theorem append (h : Differ found declared) (h' : Differ found' declared') :
    Differ (found ++ found') (declared ++ declared') where
  filter := by rw [List.filter_append, h.filter, h'.filter]
  words := List.forall_mem_append.mpr ⟨h.words, h'.words⟩

theorem nil : Differ [] [] := ⟨rfl, nofun⟩

theorem same {kind : DeclarationKind} (hkind : kind ≠ .const) {names : List String}
    (h : ∀ name ∈ names, IsWord name.toList) :
    Differ (names.map (kind, ·)) (names.map (kind, ·)) where
  filter := by
    refine List.filter_eq_self.mpr (List.forall_mem_map.mpr fun name _ => ?_)
    refine decide_eq_true fun heq => hkind ?_
    exact congrArg Prod.fst heq
  words := List.forall_mem_map.mpr h

theorem consts {names : List String} (h : ∀ name ∈ names, IsWord name.toList) :
    Differ (((withCommas names).filter (· ≠ "_")).map (DeclarationKind.const, ·))
      ((names.filter (· ≠ "_")).map (DeclarationKind.const, ·)) where
  filter := by
    have hcommas : (withCommas names).filter ((fun d => decide (d ≠ commaConst)) ∘
        (DeclarationKind.const, ·)) = names := by
      refine (List.filter_congr fun name _ => ?_).trans (filter_withCommas h)
      simp [commaConst]
    rw [List.filter_map, List.filter_comm, hcommas]
  words := List.forall_mem_map.mpr fun name hname => h name (List.mem_filter.mp hname).1

/-- A tree declares what is found there, but for the commas. -/
theorem of_derives (h : Derives place symbols trees ls) (hls : ∀ l ∈ ls, l.Proper) :
    Differ (Tree.declaredOf withCommas trees) (Tree.declaredOf id trees) := by
  induction h with
  | nil => exact .nil
  | terminal _ hleaf hextras _ ih =>
    obtain ⟨-, hls⟩ := List.forall_mem_cons.mp hls
    obtain ⟨-, hls⟩ := List.forall_mem_append.mp hls
    rw [declaredOf_step hextras, declaredOf_step hextras, declared_leaf hleaf, declared_leaf hleaf]
    exact ih hls
  | @nonterminal _ n _ _ summary children _ _ _ _ _ _ hinner hextras _ ihinner ih =>
    obtain ⟨hlsinner, hls⟩ := List.forall_mem_append.mp hls
    obtain ⟨-, hls⟩ := List.forall_mem_append.mp hls
    have hnames := isWord_of_mem_namesOf hinner hlsinner
    have hchildren := ihinner hlsinner
    rw [declaredOf_step hextras, declaredOf_step hextras]
    refine .append ?_ (ih hls)
    by_cases hholds : n.holdsDeclarations = true
    · rw [declared_of_holds hholds, declared_of_holds hholds]
      exact hchildren
    · cases n with
      | typeDef => exact .same (by decide : DeclarationKind.type ≠ .const) hnames
      | aliasDecl => exact .same (by decide : DeclarationKind.typeAlias ≠ .const) hnames
      | functionDecl => exact .same (by decide : DeclarationKind.func ≠ .const) hnames
      | varSpec =>
        exact .same (by decide : DeclarationKind.var ≠ .const) fun name hname =>
          hnames name (List.mem_filter.mp hname).1
      | constSpec => exact .consts hnames
      | _ => first | exact .nil | exact absurd rfl hholds

end Differ

theorem differ_of_reading {text : List Char} {tree : Tree} (h : Reading text tree) :
    Differ (tree.declared withCommas) (tree.declared id) := by
  cases h with
  | @file way summary last before trees after bls ls als hls hbefore _ htrees hafter hlast =>
  have hproper : ∀ l ∈ ls, l.Proper := fun l hl =>
    hls.proper l (List.mem_append_right _ (List.mem_append_left _ hl))
  rw [declared_file hbefore hafter hlast, declared_file hbefore hafter hlast]
  exact .of_derives htrees hproper

end Source

open Source

namespace Package

variable {p : Package}

/-- What names a package has that is read off a tree. -/
structure DeclaredNamesLaws (p : Package) (tree : Tree) : Prop where
  /-- All that a tree declares is found, in order, and between the names of constants that are
  specified together the commas are. -/
  names : p.declarations.map (fun d => (d.kind, d.name)) = tree.declared withCommas
  /-- The commas aside, nothing but what the tree declares is. -/
  declared : (p.declarations.map fun d => (d.kind, d.name)).filter (· ≠ commaConst) =
    tree.declared id
  identifiers : ∀ d ∈ p.declarations, (d.kind, d.name) ≠ commaConst → IsWord d.name.toList

theorem DeclaredNamesLaws.of_reading {text : List Char} {tree : Tree} (h : Reading text tree)
    (hnames : p.declarations.map (fun d => (d.kind, d.name)) = tree.declared withCommas) :
    p.DeclaredNamesLaws tree := by
  have hdiffer := differ_of_reading h
  have hfilter : (p.declarations.map fun d => (d.kind, d.name)).filter (· ≠ commaConst) =
      tree.declared id := by rw [hnames, hdiffer.filter]
  refine ⟨hnames, hfilter, fun d hd hcomma => ?_⟩
  have hmem : (d.kind, d.name) ∈ tree.declared id := by
    rw [← hfilter]
    exact List.mem_filter.mpr ⟨List.mem_map_of_mem hd, decide_eq_true hcomma⟩
  exact hdiffer.words _ hmem

/-- A package has the names that its file declares, to every parser that finds readings. -/
theorem declaredNamesLaws {parser : List Char → Option Tree} {location text path : String}
    (hreads : Reads parser text.toList)
    (h : ofSourceBy parser location text path = .ok p) :
    ∃ tree, Reading text.toList tree ∧ p.DeclaredNamesLaws tree := by
  unfold ofSourceBy parseBy at h
  cases hparser : parser text.toList with
  | none =>
    rw [hparser] at h
    cases h
  | some tree =>
    rw [hparser] at h
    dsimp only at h
    by_cases hcost : tree.cost > 0
    · rw [if_pos hcost] at h
      cases h
    · rw [if_neg hcost] at h
      cases h
      have hreading := hreads.sound tree hparser (Nat.eq_zero_of_not_pos hcost)
      refine ⟨tree, hreading, .of_reading hreading ?_⟩
      exact (map_flatMap_readItem _ _).trans (names_of_reading hreading)

/-- The tree of `const A, B = 1, 2`, without the values. -/
def pairOfConsts : Tree :=
  let leaf (t : Terminal) (start stop : Nat) : Tree :=
    let text : Cursor := .start "const A, B = 1, 2".toList
    .mk (.terminal t) { (default : Summary) with start := text.skip start, stop := text.skip stop }
      []
  .mk (.nonterminal .constDecl) default
    [leaf .kwConst 0 5,
      .mk (.nonterminal .constSpec) default
        [leaf .identifier 6 7,
          .mk (.nonterminal .moreNames) default [leaf .comma 7 8, leaf .identifier 9 10],
          leaf .assign 11 12, .mk (.nonterminal .expressions) default []]]

/-- The comma is loaded as a constant, which the declaration does not have. -/
theorem comma_declared :
    (Outline.ofTree (some .file) pairOfConsts).flatMap (fun o => (Outline.item o).names) =
      [(.const, "A"), (.const, ","), (.const, "B")] ∧
    pairOfConsts.declared id = [(.const, "A"), (.const, "B")] := by
  refine ⟨rfl, rfl⟩

end Package

end Interposer
