import Interposer.Proofs.Source.Phrases
import Interposer.Proofs.Source.Types

/-! Texts of whole files, put together from declarations. Each can be read as such and shows what it
declares, and so the file has a reading, and its lexemes tell its items. -/

namespace Interposer.Source

/-! ## Declarations -/

/-- A text that is a statement or a declaration at top level, and declares some items. -/
structure IsItem (cs : List Char) (items : List Item) : Prop where
  spelled : OneOf [.statement, .packageClause, .functionDecl, .methodDecl, .importDecl] .operand cs
  shows : Shows cs items

namespace IsItem

variable {cs w : List Char} {items : List Item}

theorem comment {text : List Char} (htext : ∀ c ∈ text, c ≠ '\n' ∧ c ≠ '\r' ∧ c ≠ '\x00')
    (h : IsItem cs items) : IsItem ('/' :: '/' :: text ++ '\n' :: cs) items := by
  obtain ⟨n, hn, hspelled⟩ := h.spelled
  exact ⟨⟨n, hn, .comment htext hspelled⟩, .comment htext h.shows⟩

theorem package (hw : IsName w) :
    IsItem ("package".toList ++ ' ' :: w) [.package (String.ofList w)] := by
  have hname : Spelled .other [.terminal .identifier] (w ++ []) :=
    .name hw (Nat.le_refl _) .nil free_nil
  rw [List.append_nil] at hname
  exact ⟨⟨.packageClause, by decide,
    .of_way [.terminal .kwPackage, .terminal .identifier] (by decide)
      (.keyword (.of_all (by decide)) (by decide) (.space (.inl rfl) hname) (free_cons rfl _))⟩,
    .package hw⟩

/-- A struct with one field. -/
theorem struct {field type : List Char} (hw : IsName w) (hfield : IsName field)
    (htype : IsType type) :
    IsItem ("type".toList ++ ' ' :: (w ++ ' ' :: ("struct".toList ++
        ' ' :: Brackets.braces.wrap ('\n' :: '\t' :: (field ++ ' ' :: (type ++ ['\n']))))))
      [.types [.definition (String.ofList w) [] .struct]] := by
  have hfieldDecl : Spelled .other [.nonterminal .fieldDecl] (field ++ ' ' :: type) :=
    .of_way [.terminal .identifier, .nonterminal .simpleType] (by decide)
      (.name hfield (Nat.le_refl _) (.space (.inl rfl) htype.spelled) (free_cons rfl _))
  have hfills : Fills .braces .fieldDecls ('\n' :: '\t' :: (field ++ ' ' :: (type ++ ['\n']))) := by
    refine ⟨[.fieldDecl], by decide, ?_⟩
    simpa using ((hfieldDecl.append_newlines (List.forall_mem_singleton.mpr rfl)).space
      (.inr rfl)).newline
  have hdef : Spelled .other [.nonterminal .typeDef] (w ++ ' ' :: ("struct".toList ++
      ' ' :: Brackets.braces.wrap ('\n' :: '\t' :: (field ++ ' ' :: (type ++ ['\n']))))) :=
    .of_way [.terminal .identifier, .nonterminal .simpleType] (by decide)
      (.name hw (Nat.le_refl _) (.space (.inl rfl) (.of_way [.nonterminal .structType] (by decide)
        (.of_way [.terminal .kwStruct, .nonterminal .fieldDecls] (by decide)
          (.keyword (.of_all (by decide)) (by decide) (.space (.inl rfl) (hfills.spelled _))
            (free_cons rfl _))))) (free_cons rfl _))
  refine ⟨⟨.statement, by decide, .of_way [.nonterminal .typeDecl] (by decide)
    (.of_way [.terminal .kwType, .nonterminal .typeDef] (by decide)
      (.keyword (.of_all (by decide)) (by decide) (.space (.inl rfl) hdef) (free_cons rfl _)))⟩, ?_⟩
  simpa using (Shows.structType hw).append (Shows.wrap hfills.enclosed).space (free_cons rfl _)

/-- A blank variable, which has the compiler check the type of its value. -/
theorem blankVar {type value : List Char} (htype : IsType type) (hvalue : IsExpression value)
    (hshows : Shows value []) :
    IsItem ("var".toList ++ ' ' :: '_' :: ' ' :: (type ++ ' ' :: '=' :: ' ' :: value)) [] := by
  have hblank : IsName ['_'] := .of_all (by decide) (by decide)
  have hspec : Spelled .other [.nonterminal .varSpec]
      (['_'] ++ ' ' :: (type ++ ' ' :: '=' :: ' ' :: value)) :=
    .of_way [.terminal .identifier, .nonterminal .simpleType, .terminal .assign,
        .nonterminal .expressions] (by decide)
      (.name hblank (Nat.le_refl _) (.space (.inl rfl) (htype.spelled.append
        (.space (.inl rfl) (.operator_char (by decide) nofun chunk_assign (.space (.inl rfl)
          ((IsExpressions.of_expression hvalue).mono (Nat.zero_le _)))))
        (free_cons rfl _))) (free_cons rfl _))
  refine ⟨⟨.statement, by decide, .of_way [.nonterminal .varDecl] (by decide)
    (.of_way [.terminal .kwVar, .nonterminal .varSpec] (by decide)
      (.keyword (.of_all (by decide)) (by decide) (.space (.inl rfl) hspec)
        (free_cons rfl _)))⟩, ?_⟩
  have hassign : Shows (' ' :: '=' :: ' ' :: value) [] :=
    (Shows.operator (by decide) rfl rfl chunk_assign hshows.space).space
  have htyped := htype.shows.append hassign (free_cons rfl _)
  simpa using Shows.blankVar.append htyped.space (free_cons rfl _)

/-! ### Functions -/

/-- What comes after the name of a function. -/
structure IsSignature (cs : List Char) : Prop where
  spelled : ∃ phrases ∈ [[], [.params], [.simpleType]], ∀ place, Spelled place
    (.nonterminal .params :: (phrases.map .nonterminal ++ [.nonterminal .block])) cs
  free : Free cs
  shows : Shows cs []

theorem isSignature {params result body : List Char} (hparams : Fills .parens .params params)
    (hresult : IsResult result) (hbody : Fills .braces .block body) :
    IsSignature (Brackets.parens.wrap params ++ (result ++ ' ' :: Brackets.braces.wrap body)) := by
  obtain ⟨phrases, hphrases, hspelled⟩ := hresult.spelled
  have hfree : Free (result ++ ' ' :: Brackets.braces.wrap body) := by
    cases result with
    | nil => exact free_cons rfl _
    | cons c result => exact hresult.free
  refine ⟨⟨phrases, hphrases, fun place => ?_⟩, free_cons rfl _, ?_⟩
  · have hrest := hspelled.append (.space (.inl rfl) (hbody.spelled _)) (free_cons rfl _)
    exact (hparams.spelled place).append hrest hfree
  · have hrest := hresult.shows.append (Shows.wrap hbody.enclosed).space (free_cons rfl _)
    exact Shows.wrap_append hparams.enclosed hrest

theorem func (hw : IsName w) (h : IsSignature cs) :
    IsItem ("func".toList ++ ' ' :: (w ++ cs)) [.func (String.ofList w)] := by
  obtain ⟨phrases, hphrases, hspelled⟩ := h.spelled
  have hways : ∀ phrases ∈ [[], [.params], [.simpleType]],
      .terminal .kwFunc :: .terminal .identifier :: .nonterminal .params ::
        (phrases.map .nonterminal ++ [.nonterminal .block]) ∈ Nonterminal.functionDecl.ways := by
    decide
  refine ⟨⟨.functionDecl, by decide, .of_way _ (hways phrases hphrases)
    (.keyword (.of_all (by decide)) (by decide) (.space (.inl rfl)
      (.name hw (Nat.le_refl _) (hspelled _) h.free)) (free_cons rfl _))⟩, ?_⟩
  simpa using (Shows.funcName hw).append h.shows h.free

theorem method {receiver : List Char} (hreceiver : Fills .parens .params receiver)
    (hw : IsName w) (h : IsSignature cs) :
    IsItem ("func".toList ++ ' ' :: (Brackets.parens.wrap receiver ++ ' ' :: (w ++ cs))) [] := by
  obtain ⟨phrases, hphrases, hspelled⟩ := h.spelled
  have hways : ∀ phrases ∈ [[], [.params], [.simpleType]],
      .terminal .kwFunc :: .nonterminal .params :: .terminal .identifier :: .nonterminal .params ::
        (phrases.map .nonterminal ++ [.nonterminal .block]) ∈ Nonterminal.methodDecl.ways := by
    decide
  refine ⟨⟨.methodDecl, by decide, .of_way _ (hways phrases hphrases)
    (.keyword (.of_all (by decide)) (by decide) (.space (.inl rfl)
      ((hreceiver.spelled _).append (.space (.inl rfl)
        (.name hw (Nat.le_refl _) (hspelled _) h.free)) (free_cons rfl _))) (free_cons rfl _))⟩, ?_⟩
  have hname := ((Shows.name hw).append h.shows h.free).space
  simpa using (Shows.func_wrap hreceiver.enclosed (.inr rfl)).append hname (free_cons rfl _)

/-! ### Imports -/

/-- Specifications with tabs before them, each after an end of a line. -/
theorem fills_importSpecs {specs : List (List Char)}
    (hspecs : ∀ cs ∈ specs, Spelled .other [.nonterminal .importSpec] cs) (hne : specs ≠ []) :
    Fills .parens .importSpecs (specs.flatMap ('\n' :: '\t' :: ·) ++ ['\n']) := by
  obtain ⟨first, specs, rfl⟩ := List.exists_cons_of_ne_nil hne
  obtain ⟨hfirst, hrest⟩ := List.forall_mem_cons.mp hspecs
  have hlines : ∃ phrases ∈ [[.importSpec], [.importSpec, .moreImportSpecs]],
      Spelled .other (phrases.map .nonterminal) (first ++ specs.flatMap ('\n' :: '\t' :: ·)) := by
    by_cases hempty : specs = []
    · exact ⟨[.importSpec], by simp, by simpa [hempty] using hfirst⟩
    · refine ⟨[.importSpec, .moreImportSpecs], by simp, ?_⟩
      rw [List.flatMap_def]
      refine hfirst.append (.flatten (by decide) ?_ (by simpa using hempty)) ?_
      · exact List.forall_mem_map.mpr fun cs hcs => ⟨free_cons rfl _,
          .of_way [.terminal .newline, .nonterminal .importSpec] (by decide)
            (.terminator (.space (.inr rfl) (hrest cs hcs)))⟩
      · exact free_flatten (List.forall_mem_map.mpr fun cs _ => free_cons rfl _)
  obtain ⟨phrases, hphrases, hspelled⟩ := hlines
  have hways : ∀ phrases ∈ [[.importSpec], [.importSpec, .moreImportSpecs]],
      Brackets.parens.around phrases ∈ Nonterminal.importSpecs.ways := by decide
  refine ⟨phrases, hways phrases hphrases, ?_⟩
  simpa using ((hspelled.append_newlines (List.forall_mem_singleton.mpr rfl)).space
    (.inr rfl)).newline

theorem imports {specs : List (List Char)}
    (hspecs : ∀ cs ∈ specs, Spelled .other [.nonterminal .importSpec] cs) (hne : specs ≠ []) :
    IsItem ("import".toList ++
      ' ' :: Brackets.parens.wrap (specs.flatMap ('\n' :: '\t' :: ·) ++ ['\n'])) [] := by
  have hfills := fills_importSpecs hspecs hne
  have hword : Shows "import".toList [] := .word (.of_all (by decide)) (by decide)
  refine ⟨⟨.importDecl, by decide, .of_way [.terminal .kwImport, .nonterminal .importSpecs]
    (by decide) (.keyword (.of_all (by decide)) (by decide)
      (.space (.inl rfl) (hfills.spelled _)) (free_cons rfl _))⟩, ?_⟩
  simpa using hword.append (Shows.wrap hfills.enclosed).space (free_cons rfl _)

end IsItem

/-! ## Files -/

/-- A text that is a file after what a file begins with, or on its own, and declares some items. -/
structure IsFile (cs : List Char) (items : List Item) : Prop where
  spelled : Spelled .operand [.nonterminal .moreItems] cs
  shows : Shows cs items
  free : Free cs
  getLast? : cs.getLast? = some '\n'

namespace IsFile

variable {cs cs' : List Char} {items items' : List Item}

theorem single (h : IsItem cs items) : IsFile ('\n' :: (cs ++ ['\n'])) items := by
  obtain ⟨n, hn, hspelled⟩ := h.spelled
  have hways : ∀ n ∈ [.statement, .packageClause, .functionDecl, .methodDecl, .importDecl],
      [.nonterminal n, .terminal .newline] ∈ Nonterminal.moreItems.ways := by decide
  have hline : ∀ place, Spelled place [.terminal .newline] ['\n'] := fun place => .terminator .nil
  refine ⟨.of_way _ (hways n hn) (hspelled.append (hline _) (free_cons rfl _)).newline, ?_,
    free_cons rfl _, ?_⟩
  · simpa using (h.shows.append (Shows.newline .nil) (free_cons rfl _)).newline
  · rw [← List.cons_append, List.getLast?_concat]

theorem append (h : IsFile cs items) (h' : IsFile cs' items') :
    IsFile (cs ++ cs') (items ++ items') where
  spelled := .of_way [.nonterminal .moreItems, .nonterminal .moreItems] (by decide)
    (h.spelled.append (h'.spelled.mono (Nat.zero_le _)) h'.free)
  shows := h.shows.append h'.shows h'.free
  free := by
    cases cs with
    | nil => exact h'.free
    | cons c cs => exact h.free
  getLast? := by rw [List.getLast?_append, h'.getLast?, Option.some_or]

/-- Items with empty lines between them. -/
theorem of_items {texts : List (List Char)} {itemss : List (List Item)}
    (h : List.Forall₂ IsItem texts itemss) (hne : texts ≠ []) :
    IsFile (texts.flatMap fun cs => '\n' :: (cs ++ ['\n'])) itemss.flatten := by
  induction h with
  | nil => exact absurd rfl hne
  | @cons cs items texts itemss hcs hrest ih =>
    cases texts with
    | nil =>
      cases hrest
      simpa using single hcs
    | cons cs' texts => exact (single hcs).append (ih (List.cons_ne_nil cs' texts))

theorem comment {text : List Char} (htext : ∀ c ∈ text, c ≠ '\n' ∧ c ≠ '\r' ∧ c ≠ '\x00')
    (h : IsFile cs items) : IsFile ('/' :: '/' :: text ++ '\n' :: cs) items where
  spelled := .comment htext h.spelled
  shows := .comment htext h.shows
  free := free_cons rfl _
  getLast? := by
    obtain ⟨c, cs', rfl⟩ := List.exists_cons_of_ne_nil
      (show cs ≠ [] by rintro rfl; exact nomatch h.getLast?)
    rw [List.getLast?_append_cons, List.getLast?_cons_cons, h.getLast?]

/-- A file can be read, and its lexemes tell its items. -/
theorem exists_reading (h : IsFile cs items) : (∃ tree, Reading cs tree) ∧
    ∃ ls : List Lexeme, Lexes .newline cs ls ∧ declared (outer 0 ls) = some items := by
  have hlast : ∀ c ∈ cs.getLast?, c = '\n' := by simp [h.getLast?]
  constructor
  · obtain ⟨extras, els, trees, ls, hscans, hextras, hderives⟩ :=
      h.spelled.mono (Nat.zero_le Place.other.rank)
    obtain ⟨last, hend⟩ := Spelled.exists_leaf .endOfText []
    have hlexes : Lexes .newline cs (els ++ (ls ++ [])) := by
      simpa using hscans.lexes_of_getLast? hlast
    have hway : [.nonterminal .moreItems] ∈ Nonterminal.file.ways := by decide
    have hreading : Reading cs
        (.mk (.nonterminal .file) default (extras ++ (trees ++ ([] ++ [last])))) :=
      .file hlexes hextras hway hderives .nil hend
    exact ⟨_, hreading⟩
  · obtain ⟨ls, hscans, hitems⟩ := h.shows
    have hnil := hitems []
    refine ⟨ls, hscans.lexes_of_getLast? hlast, ?_⟩
    simpa [outer, declared] using hnil

end IsFile

end Interposer.Source
