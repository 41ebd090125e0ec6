import Interposer.Proofs.Hook.Sentry
import Interposer.Proofs.Source.Items
import Interposer.Proofs.Source.Operands
import Interposer.Proofs.Wrapper.Comments
import Interposer.Proofs.Wrapper.Imports
import Interposer.Proofs.Wrapper.Legibility

/-! A generated file is a source file again. It can be read, and declares the wrapper's struct and
its constructor, in the package that it was generated for, unless the wrapper is called like a
predeclared value: then its constructor cannot be read. -/

namespace Interposer

open Source

namespace Wrapper

variable {typeName : String} {type : SignatureType}

/-! ## The struct -/

theorem isItem_doc {doc : String} {cs : List Char} {items : List Item} (hdoc : IsLine doc.toList)
    (hne : doc ≠ "") (h : IsItem cs items) :
    IsItem ((renderDoc (some doc)).toList ++ cs) items := by
  have hline : IsLine (' ' :: doc.toList) := isLine_cons.mpr ⟨by decide, hdoc⟩
  rw [toList_renderDoc hdoc hne]
  simpa using h.comment hline

theorem isName_wrappedName : IsName wrappedName.toList := by decide

theorem legibleVariable_wrapped (h : type.Legible) : LegibleVariable ⟨wrappedName, type⟩ :=
  ⟨isName_wrappedName, h⟩

theorem isItem_struct (htype : IsName typeName.toList) (h : type.Legible) {doc : String}
    (hdoc : IsLine doc.toList) (hne : doc ≠ "") :
    IsItem (TopLevel.struct (some doc) typeName [⟨wrappedName, type⟩]).render.toList
      [.types [.definition typeName [] .struct]] := by
  have hwrapped := legibleVariable_wrapped h
  have hitem := isItem_doc hdoc hne (.struct htype hwrapped.isName h.rendered.isType)
  simpa [TopLevel.render, hwrapped.renderField_eq, String.join, Brackets.wrap, Brackets.opening,
    Brackets.closing] using hitem

/-! ## The constructor -/

/-- A nil pointer of a type. -/
theorem isExpression_nilPointer (htype : IsName typeName.toList) :
    IsExpression ("(*" ++ typeName ++ ")(nil)").toList ∧
      Shows ("(*" ++ typeName ++ ")(nil)").toList [] := by
  have hnil : IsExpression "nil".toList := .name (by decide)
  have hpointer : IsExpression ('*' :: typeName.toList) := by
    have hname := IsExpression.name htype
    rw [← List.append_nil typeName.toList] at hname ⊢
    exact hname.pointee htype.isWord
  have hargs : ∀ cs ∈ ["nil".toList], OneOf Source.arguments .other cs :=
    List.forall_mem_singleton.mpr hnil.argument
  have hshows := Shows.wrap_append ((hpointer.spelled .other).enclosed [.expression] .parens)
    (Shows.wrap ((hnil.spelled .other).enclosed [.expression] .parens))
  constructor
  · simpa [Brackets.wrap, Brackets.opening, Brackets.closing] using
      hpointer.parenthesized.call hargs
  · simpa [Brackets.wrap, Brackets.opening, Brackets.closing] using hshows

theorem isItem_blankVar (htype : IsName typeName.toList) (h : type.Legible) :
    IsItem (TopLevel.var "_" (some type) ("(*" ++ typeName ++ ")(nil)")).render.toList [] := by
  obtain ⟨hvalue, hshows⟩ := isExpression_nilPointer htype
  simpa [TopLevel.render] using IsItem.blankVar h.rendered.isType hvalue hshows

/-- A pointer to a literal. -/
theorem isExpression_construct (htype : IsLiteralName typeName.toList) :
    IsExpression
      ("&" ++ typeName ++ "\x7b" ++ wrappedName ++ ": " ++ wrappedName ++ "\x7d").toList := by
  have hwrapped := IsExpression.name isName_wrappedName
  have hentries := IsLiteral.of_entries
    (List.forall_mem_singleton.mpr (IsEntry.of_expressions hwrapped hwrapped))
  have hname : Spelled .operand [.terminal .identifier] (typeName.toList ++ []) :=
    htype.spelled _ .nil free_nil
  rw [List.append_nil] at hname
  have hliteral := IsExpression.literal (by decide) hname hentries
  simpa [Brackets.wrap, Brackets.opening, Brackets.closing] using hliteral.address htype.isWord

theorem Function.render_eq (f : Function) :
    f.render = renderDoc f.doc ++ { f with doc := none }.render := by
  simp [render, renderDoc, String.append_assoc]

/-- The function that makes a wrapper. -/
def constructorOf (typeName : String) (type : SignatureType) : Function where
  doc := some ("New" ++ typeName ++ " creates a new " ++ typeName ++ " that wraps the passed " ++
    type.render ++ ".")
  receiver := none
  name := "New" ++ typeName
  params := [⟨wrappedName, type⟩]
  results := [⟨"", .pointer (.predeclared typeName)⟩]
  variadic := false
  body := [.returns ["&" ++ typeName ++ "\x7b" ++ wrappedName ++ ": " ++ wrappedName ++ "\x7d"]]

theorem isName_constructor (htype : IsName typeName.toList) :
    IsName ("New" ++ typeName).toList := by
  have hnew : IsWord "New".toList := .of_all (by decide)
  rw [String.toList_append]
  exact (IsLiteralName.of_not_lower (hnew.append htype.isWord.isWordChar)
    (.inr ⟨'N', by simp, by decide⟩)).isName

theorem isResult_constructor (type : SignatureType) (htype : IsName typeName.toList) :
    IsResult (renderResults (constructorOf typeName type).results).toList := by
  have hpointer : SignatureType.Legible (.pointer (.predeclared typeName)) :=
    .pointer (.unqualified htype)
  simpa [constructorOf, renderResults] using IsResult.single hpointer.rendered.isType

theorem isLine_constructor (htype : IsName typeName.toList) (h : type.Legible) :
    IsLine ("New" ++ typeName ++ " creates a new " ++ typeName ++ " that wraps the passed " ++
      type.render ++ ".").toList := by
  simpa using And.intro (isLine_of_isName htype) (isLine_render h)

theorem isItem_constructor (htype : IsLiteralName typeName.toList) (h : type.Legible) :
    IsItem (constructorOf typeName type).render.toList [.func ("New" ++ typeName)] := by
  have hreturn := Statement.Legible.returns
    (List.forall_mem_singleton.mpr (isExpression_construct htype)) (List.cons_ne_nil _ _)
  have hlegible : Function.Legible { constructorOf typeName type with doc := none } :=
    ⟨isName_constructor htype.isName, List.forall_mem_singleton.mpr (legibleVariable_wrapped h),
      isResult_constructor type htype.isName, List.forall_mem_singleton.mpr hreturn⟩
  rw [Function.render_eq, String.toList_append]
  exact isItem_doc (isLine_constructor htype.isName h) (by simp) (hlegible.isItem_func rfl rfl)

/-- A block of one line. -/
theorem toList_blockText {line : String} (h : IsLine line.toList) (hne : line ≠ "") :
    (blockText [line]).toList = '\t' :: (line.toList ++ ['\n']) := by
  simp [blockText, Text.indent, lines_of_isLine h hne, Text.indentLine, hne]

/-- The text of the constructor, up to the literal's braces and from there. -/
theorem toList_render_constructorOf (htype : IsName typeName.toList) (type : SignatureType) :
    (constructorOf typeName type).render.toList =
      (renderDoc (constructorOf typeName type).doc).toList ++
        ("func".toList ++ ' ' :: ("New" ++ typeName).toList ++
          (Brackets.parens.wrap
              (", ".intercalate (renderParams false [⟨wrappedName, type⟩])).toList ++
            (renderResults (constructorOf typeName type).results).toList) ++
          ' ' :: '\x7b' :: '\n' :: '\t' :: ("return".toList ++ ' ' :: '&' :: (typeName.toList ++
            '\x7b' :: (wrappedName.toList ++ ':' :: ' ' :: wrappedName.toList ++
              ['\x7d', '\n', '\x7d'])))) := by
  have hline : IsLine ("return " ++ ("&" ++ typeName ++ "\x7b" ++ wrappedName ++ ": " ++
      wrappedName ++ "\x7d")).toList := by
    simpa [wrappedName] using isLine_of_isName htype
  have hbody : renderAll (constructorOf typeName type).body = ["return " ++ ("&" ++ typeName ++
      "\x7b" ++ wrappedName ++ ": " ++ wrappedName ++ "\x7d")] := by
    simp [constructorOf, renderAll, Statement.render, returnText]
  rw [Function.render, hbody, String.toList_append, String.toList_append, toList_blockText hline]
  · simp [constructorOf, Brackets.wrap, Brackets.opening, Brackets.closing]
  · simp

/-- Whatever the wrapper is called, its constructor returns the address of a literal. -/
theorem contains_constructor (htype : IsName typeName.toList) (h : type.Legible) :
    Contains (constructorOf typeName type).render.toList (returnOfAddress typeName.toList) := by
  have hparams := LegibleVariable.fills_params
    (List.forall_mem_singleton.mpr (legibleVariable_wrapped h)) false
  obtain ⟨ls, hsignature, -⟩ := (Shows.funcName (isName_constructor htype)).append
    (Shows.wrap_append hparams.enclosed (isResult_constructor type htype).shows) (free_cons rfl _)
  have hwrapped := IsExpression.name isName_wrappedName
  obtain ⟨ls', hafter⟩ : ∃ ls', Scans (wrappedName.toList ++ ':' :: ' ' :: wrappedName.toList ++
      ['\x7d', '\n', '\x7d']) ls' := by
    obtain ⟨_, els, _, ls, hentry, -⟩ := IsEntry.of_expressions hwrapped hwrapped
    have hbrace : (['\x7d'], Terminal.rightBrace) ∈ fullOperators := by decide
    exact ⟨_, hentry.append ((Scans.nil.operator hbrace).newline.operator hbrace)
      (free_cons rfl _)⟩
  have hfunc := (Contains.returnOfAddress htype.isWord hafter).prepend hsignature (free_cons rfl _)
  have hdoc := isLine_constructor htype h
  have hcomment := hfunc.comment (isLine_cons.mpr ⟨(by decide : ' ' ≠ '\n' ∧ _), hdoc⟩)
  rw [toList_render_constructorOf htype, constructorOf, toList_renderDoc hdoc (by simp)]
  simpa [constructorOf] using hcomment

/-! ## Files -/

theorem flatMap_cons_append {α β : Type} (sep : β) (f : α → List β) (xs : List α) :
    xs.flatMap (fun x => sep :: f x) ++ [sep] = sep :: xs.flatMap fun x => f x ++ [sep] := by
  induction xs with
  | nil => rfl
  | cons x xs ih => simp [ih]

theorem isItem_imports {imports : List Import}
    (haliases : ∀ entry ∈ imports, IsName entry.name.toList) :
    ∀ text ∈ renderImports imports, IsItem text.toList [] := by
  unfold renderImports
  split
  · exact nofun
  · next hne =>
    have hspec : ∀ entry ∈ imports,
        Spelled .other [.nonterminal .importSpec] (renderImport entry).toList := by
      intro entry hentry
      have hquote : Spelled .other [.nonterminal .quotedString] (Text.quote entry.path).toList :=
        .quotedString entry.path
      have hall : Spelled .other [.nonterminal .importSpec]
          (entry.name.toList ++ ' ' :: (Text.quote entry.path).toList) :=
        .of_way [.terminal .identifier, .nonterminal .quotedString] (by decide)
          (.name (haliases entry hentry) (Nat.le_refl _) (.space (.inl rfl) hquote)
            (free_cons rfl _))
      simpa [renderImport] using hall
    have himports := IsItem.imports (List.forall_mem_map.mpr hspec) (by simpa using hne)
    refine List.forall_mem_singleton.mpr ?_
    rw [List.flatMap_map, flatMap_cons_append] at himports
    simpa [String.toList_join, List.flatMap_def, Function.comp_def, Brackets.wrap,
      Brackets.opening, Brackets.closing] using himports

/-- What a file for a wrapper declares. -/
def itemsOf (package typeName : String) : List Item :=
  [.package package, .types [.definition typeName [] .struct], .func ("New" ++ typeName)]

theorem forall₂_silent {texts : List String} (h : ∀ text ∈ texts, IsItem text.toList []) :
    List.Forall₂ IsItem (texts.map String.toList) (List.replicate texts.length []) := by
  induction texts with
  | nil => exact .nil
  | cons text texts ih =>
    obtain ⟨htext, hrest⟩ := List.forall_mem_cons.mp h
    exact .cons htext (ih hrest)

/-- The texts that empty lines separate, after the header. -/
def File.parts (file : File) : List String :=
  ["package " ++ file.package] ++ renderImports file.imports ++
    file.declarations.map TopLevel.render

theorem File.toList_render (file : File) : file.render.toList =
    (renderHeader file.header).toList ++
      '\n' :: (file.parts.map String.toList).flatMap fun cs => '\n' :: (cs ++ ['\n']) := by
  have hgaps := flatMap_cons_append '\n' ('\n' :: ·) (file.parts.map String.toList)
  have hrender : file.render =
      "\n\n".intercalate (renderHeader file.header :: file.parts) ++ "\n" := rfl
  rw [hrender, String.toList_append, String.toList_intercalate, List.map_cons,
    Text.intercalate_cons]
  simpa using hgaps

variable {package : String} {i : Interface} {hooks : List Hook} {table : ImportTable} {file : File}

/-- The methods of a file can be read and declare nothing. -/
theorem isItem_methods (H : table.WellFormed) (hi : i.Legible)
    (hhooks : ∀ hook ∈ hooks, hook.Legible) (htype : isIdentifier typeName = true)
    {pairs : List (Method × Fragments)} (h : instrument table hooks i.methods = .ok pairs) :
    ∀ pair ∈ pairs, IsItem (methodFunction typeName pair.1 pair.2).render.toList [] := by
  obtain ⟨hmethods, hfragments⟩ := instrument_eq_ok h
  intro pair hpair
  have hm := hi.methods pair.1 (hmethods ▸ List.mem_map_of_mem hpair)
  exact isItem_methodFunction H hhooks hm (hfragments pair hpair) htype

theorem header_of_file (h : Wrapper.file package typeName i hooks table = .ok file) :
    file.header = headerText ∧ file.package = package := by
  obtain ⟨pairs, -, h⟩ := bind_eq_ok.mp h
  cases h
  exact ⟨rfl, rfl⟩

theorem toList_renderHeader :
    (renderHeader headerText).toList = '/' :: '/' :: ' ' :: headerText.toList := by
  decide

theorem isLine_header : IsLine (' ' :: headerText.toList) := by
  simp [headerText]

/-- The parts of a file before and after the constructor can be read. Those before it declare the
struct. -/
theorem exists_parts (H : table.WellFormed)
    (haliases : ∀ entry ∈ table.entries, IsName entry.name.toList) (hi : i.Legible)
    (hhooks : ∀ hook ∈ hooks, hook.Legible) (hpackage : isIdentifier package = true)
    (htype : isIdentifier typeName = true)
    (h : Wrapper.file package typeName i hooks table = .ok file) :
    ∃ (before : List (List Char)) (after : List String) (itemss : List (List Item)),
      file.parts.map String.toList =
        before ++ (constructorOf typeName i.type).render.toList :: after.map String.toList ∧
      List.Forall₂ IsItem before itemss ∧
      itemss.flatten = [.package package, .types [.definition typeName [] .struct]] ∧
      ∀ text ∈ after, IsItem text.toList [] := by
  obtain ⟨pairs, hpairs, hdeclarations, -⟩ := file_eq_ok h
  have hname : IsItem ("package " ++ package).toList [.package package] := by
    simpa using IsItem.package (isName_of_isIdentifier hpackage)
  have himports := isItem_imports fun entry hentry =>
    haliases entry (mem_entries_of_mem_imports h hentry)
  have htypeName := isName_of_isIdentifier htype
  have hdoc : IsLine (typeName ++ " wraps a " ++ i.type.render ++
      " and instruments every call made to it.").toList := by
    simpa using And.intro (isLine_of_isName htypeName) (isLine_render hi.type)
  have hstruct := isItem_struct htypeName hi.type hdoc (by simp)
  have hmethods : ∀ text ∈ (pairs.map fun pair => TopLevel.func
      (methodFunction typeName pair.1 pair.2)).map TopLevel.render, IsItem text.toList [] := by
    simp only [List.map_map, List.forall_mem_map]
    exact isItem_methods H hi hhooks htype hpairs
  refine ⟨_, _, _, ?_, .cons hname (List.rel_append (forall₂_silent himports)
    (.cons hstruct (.cons (isItem_blankVar htypeName hi.type) .nil))), by simp, hmethods⟩
  simp [File.parts, hdeclarations, (header_of_file h).2, typeDeclarations, constructorOf,
    TopLevel.render]

/-- The text of a file is that of a source file. -/
theorem isFile_render (H : table.WellFormed)
    (haliases : ∀ entry ∈ table.entries, IsName entry.name.toList) (hi : i.Legible)
    (hhooks : ∀ hook ∈ hooks, hook.Legible) (hpackage : isIdentifier package = true)
    (htype : isIdentifier typeName = true) (hvalue : typeName ∉ valueWords)
    (h : Wrapper.file package typeName i hooks table = .ok file) :
    IsFile file.render.toList (itemsOf package typeName) := by
  obtain ⟨before, after, itemss, hparts, hbefore, hitems, hafter⟩ :=
    exists_parts H haliases hi hhooks hpackage htype h
  have hliteral : IsLiteralName typeName.toList :=
    .of_isName (isName_of_isIdentifier htype) (by rwa [String.ofList_toList])
  have hall := List.rel_append hbefore
    (.cons (isItem_constructor hliteral hi.type) (forall₂_silent hafter))
  have hfile := IsFile.of_items hall (List.append_ne_nil_of_right_ne_nil _ (List.cons_ne_nil _ _))
  rw [File.toList_render, (header_of_file h).1, toList_renderHeader, hparts]
  simpa [hitems, itemsOf] using hfile.comment isLine_header

theorem exists_scans_items {texts : List (List Char)} {itemss : List (List Item)}
    (h : List.Forall₂ IsItem texts itemss) :
    ∃ ls, Scans (texts.flatMap fun cs => '\n' :: (cs ++ ['\n'])) ls := by
  induction h with
  | nil => exact ⟨[], .nil⟩
  | cons hcs _ ih =>
    obtain ⟨ls, hscans, -⟩ := hcs.shows
    obtain ⟨ls', hrest⟩ := ih
    exact ⟨_, by simpa using (hscans.append hrest.newline (free_cons rfl _)).newline⟩

/-- **No wrapper is called like a predeclared value**, as far as the grammar can tell: in the text
of its file, the constructor cannot be read. -/
theorem not_reading_render (H : table.WellFormed)
    (haliases : ∀ entry ∈ table.entries, IsName entry.name.toList) (hi : i.Legible)
    (hhooks : ∀ hook ∈ hooks, hook.Legible) (hpackage : isIdentifier package = true)
    (htype : isIdentifier typeName = true) (hvalue : typeName ∈ valueWords)
    (h : Wrapper.file package typeName i hooks table = .ok file) :
    ¬ ∃ tree, Reading file.render.toList tree := by
  obtain ⟨before, after, itemss, hparts, hbefore, -, hafter⟩ :=
    exists_parts H haliases hi hhooks hpackage htype h
  obtain ⟨ls, hls⟩ := exists_scans_items hbefore
  obtain ⟨ls', hls'⟩ := exists_scans_items (forall₂_silent hafter)
  have hconstructor := contains_constructor (isName_of_isIdentifier htype) hi.type
  have hitems := ((hconstructor.append hls'.newline (free_cons rfl _)).newline.prepend hls
    (free_cons rfl _)).comment isLine_header
  have hcontains : Contains file.render.toList (returnOfAddress typeName.toList) := by
    rw [File.toList_render, (header_of_file h).1, toList_renderHeader, hparts, List.flatMap_append,
      List.flatMap_cons]
    simpa using hitems
  refine hcontains.not_reading hvalue fun c hc => ?_
  rw [File.render, String.toList_append, show "\n".toList = ['\n'] from rfl,
    List.getLast?_concat] at hc
  exact (Option.some.inj hc).symm

end Wrapper

namespace Generator

variable {p : Package} {name package typeName text : String} {hooks : List Hook} {g : Generator}
  {parser : List Char → Option Tree}

/-- A generated file declares the struct and its constructor, unless the wrapper is called like a
predeclared value. -/
theorem ofSourceBy_of_notMem_valueWords (hnew : Generator.new p name hooks = .ok g)
    (hgenerate : g.generate package typeName = .ok text) (hp : p.LegibleInterface name)
    (haliases : ∀ entry ∈ g.imports.entries, IsName entry.name.toList)
    (hhooks : ∀ hook ∈ hooks, hook.Legible) (hvalue : typeName ∉ valueWords)
    (hreads : Reads parser text.toList) (location path : String) :
    Package.ofSourceBy parser location text path =
      .ok ⟨package, path, [.type typeName [] (.struct []), .func ("New" ++ typeName)]⟩ := by
  obtain ⟨specs, S⟩ := settled_of_new hnew
  obtain ⟨hpackage, htype⟩ := isIdentifier_of_generate hgenerate
  obtain ⟨file, hfile, rfl⟩ := generate_eq_ok hgenerate
  have hisFile := Wrapper.isFile_render S.wellFormed haliases (legible_of_new hnew hp haliases)
    (S.sameHooks.symm ▸ hhooks) hpackage htype hvalue hfile
  obtain ⟨hreading, ls, hls, hitems⟩ := hisFile.exists_reading
  obtain ⟨scope, hpackage⟩ := Package.ofSourceBy_eq_ok hreads hreading hls hitems location path
  exact hpackage

/-- A generated file is refused if the wrapper is called like a predeclared value. -/
theorem ofSourceBy_of_mem_valueWords (hnew : Generator.new p name hooks = .ok g)
    (hgenerate : g.generate package typeName = .ok text) (hp : p.LegibleInterface name)
    (haliases : ∀ entry ∈ g.imports.entries, IsName entry.name.toList)
    (hhooks : ∀ hook ∈ hooks, hook.Legible) (hvalue : typeName ∈ valueWords)
    (hreads : Reads parser text.toList) (location path : String) :
    ∃ line, Package.ofSourceBy parser location text path =
      .error (.load location (.syntaxError line)) := by
  obtain ⟨specs, S⟩ := settled_of_new hnew
  obtain ⟨hpackage, htype⟩ := isIdentifier_of_generate hgenerate
  obtain ⟨file, hfile, rfl⟩ := generate_eq_ok hgenerate
  exact Package.ofSourceBy_eq_error hreads (Wrapper.not_reading_render S.wellFormed haliases
    (legible_of_new hnew hp haliases) (S.sameHooks.symm ▸ hhooks) hpackage htype hvalue hfile)
    location path

theorem legible_of_sentry (h : ∀ hook ∈ hooks, ∃ options, hook = Sentry.hook options) :
    ∀ hook ∈ hooks, hook.Legible := by
  intro hook hmem
  obtain ⟨options, rfl⟩ := h hook hmem
  exact Sentry.hook_legible options

/-- **Generated files are source files.** Given names that can be read, in the interface and in the
table of imports, a file that is generated with breadcrumbs or without hooks declares the struct and
its constructor, to every parser that finds readings, if and only if the type is not called like a
predeclared value; otherwise it is refused. -/
theorem generate_readable (hnew : Generator.new p name hooks = .ok g)
    (hgenerate : g.generate package typeName = .ok text) (hp : p.LegibleInterface name)
    (haliases : ∀ entry ∈ g.imports.entries, IsName entry.name.toList)
    (hhooks : ∀ hook ∈ hooks, ∃ options, hook = Sentry.hook options)
    (hreads : Reads parser text.toList) (location path : String) :
    (typeName ∉ valueWords → Package.ofSourceBy parser location text path =
      .ok ⟨package, path, [.type typeName [] (.struct []), .func ("New" ++ typeName)]⟩) ∧
    (typeName ∈ valueWords → ∃ line, Package.ofSourceBy parser location text path =
      .error (.load location (.syntaxError line))) := by
  have hlegible := legible_of_sentry hhooks
  exact ⟨fun hvalue => ofSourceBy_of_notMem_valueWords hnew hgenerate hp haliases hlegible hvalue
    hreads location path, fun hvalue => ofSourceBy_of_mem_valueWords hnew hgenerate hp haliases
    hlegible hvalue hreads location path⟩

theorem legibleInterface_shop : shop.LegibleInterface "Store" := by
  refine ⟨by decide, fun members specs hresolve hset => ?_⟩
  cases hresolve
  cases hset
  decide +kernel

theorem generate_shop_readable : ∃ g text, Generator.new shop "Store" [Sentry.hook {}] = .ok g ∧
    g.generate "traced" "Store" = .ok text ∧
    ∀ location path, Package.ofSourceBy readingOf? location text path =
      .ok ⟨"traced", path, [.type "Store" [] (.struct []), .func "NewStore"]⟩ := by
  obtain ⟨g, text, hnew, hgenerate, haliases⟩ : ∃ g text,
      Generator.new shop "Store" [Sentry.hook {}] = .ok g ∧
      g.generate "traced" "Store" = .ok text ∧
      ∀ entry ∈ g.imports.entries, IsName entry.name.toList :=
    ⟨_, _, rfl, rfl, by decide +kernel⟩
  refine ⟨g, text, hnew, hgenerate, fun location path => ?_⟩
  have hreadable := generate_readable hnew hgenerate legibleInterface_shop haliases
    (List.forall_mem_singleton.mpr ⟨{}, rfl⟩) (reads_readingOf? _) location path
  exact hreadable.1 (by decide)

/-- A type may be called `true`, but the address of a literal of it is not read. -/
theorem generate_true_unreadable : ∃ g text, Generator.new shop "Store" [] = .ok g ∧
    g.generate "traced" "true" = .ok text ∧ shop.LegibleInterface "Store" ∧
    (∀ entry ∈ g.imports.entries, IsName entry.name.toList) ∧ Reads readingOf? text.toList ∧
    ∀ parser, Reads parser text.toList → ∀ location path, ∃ line,
      Package.ofSourceBy parser location text path =
        .error (.load location (.syntaxError line)) := by
  obtain ⟨g, text, hnew, hgenerate, haliases⟩ : ∃ g text,
      Generator.new shop "Store" [] = .ok g ∧ g.generate "traced" "true" = .ok text ∧
      ∀ entry ∈ g.imports.entries, IsName entry.name.toList :=
    ⟨_, _, rfl, rfl, by decide +kernel⟩
  refine ⟨g, text, hnew, hgenerate, legibleInterface_shop, haliases, reads_readingOf? _, ?_⟩
  exact fun parser hreads location path => ofSourceBy_of_mem_valueWords hnew hgenerate
    legibleInterface_shop haliases nofun (by decide) hreads location path

end Generator

end Interposer
