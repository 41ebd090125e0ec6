import Interposer.Hook.Sentry
import Interposer.Proofs.Interface.Legibility
import Interposer.Proofs.Source.Phrases
import Interposer.Proofs.Source.Types

/-! The code of the hook for Sentry consists of statements, whatever its options and whatever the
method: names are names, and texts are quoted. -/

namespace Interposer

open Source

namespace Sentry

variable {sentry context : String}

/-! ## Names -/

theorem isName_span : IsName "__sentry_span".toList := by decide

theorem isLiteralName_clientName {table : ImportTable} (H : table.WellFormed) :
    IsLiteralName (clientName table).toList := by
  have hname : IsLiteralName "sentry".toList := .of_isName (by decide) (by decide)
  rw [clientName]
  cases halias : table.aliasOf? importPath with
  | none => exact hname
  | some name =>
    obtain ⟨n, hn, -⟩ := H.first _ (ImportTable.mem_of_aliasOf? halias)
    simp only [Option.getD_some] at hn ⊢
    rw [hn]
    have hdefault : defaultAlias importPath = "sentry" := by decide
    cases n with
    | zero => rwa [ImportTable.candidate, hdefault]
    | succ n =>
      rw [ImportTable.candidate, hdefault, String.toList_append]
      exact hname.isWord.isLiteralName_number n

/-! ## Spans -/

theorem isStatements_spanText (hsentry : IsName sentry.toList) (hcontext : IsName context.toList)
    (op description : String) :
    IsStatements (spanText sentry context op description).toList := by
  have hstart : IsStatements ("__sentry_span := " ++ sentry ++ ".StartSpan(" ++ context ++ ", " ++
      Text.quote op ++ ")").toList := by
    have hargs : ∀ cs ∈ [context.toList, (Text.quote op).toList],
        OneOf Source.arguments .other cs :=
      List.forall_mem_cons.mpr ⟨(IsExpression.name hcontext).argument,
        List.forall_mem_singleton.mpr (IsExpression.quote op).argument⟩
    have hcall := (IsExpression.name hsentry).callMember (w := "StartSpan".toList) (by decide) hargs
    simpa [Brackets.wrap, Brackets.opening, Brackets.closing] using IsStatements.of_simple
      (.define (.of_expression (.name isName_span)) (.of_expression hcall))
  have hdescription : IsStatements
      ("__sentry_span.Description = " ++ Text.quote description).toList := by
    have hmember := (IsExpression.name isName_span).member (w := "Description".toList) (by decide)
    simpa using IsStatements.of_simple
      (.assign (.of_expression hmember) (.of_expression (.quote description)))
  have hassign : IsStatements (context ++ " = __sentry_span.Context()").toList := by
    have hcall := (IsExpression.name isName_span).callMember (w := "Context".toList)
      (by decide) (List.forall_mem_nil _)
    simpa [Brackets.wrap, Brackets.opening, Brackets.closing] using IsStatements.of_simple
      (.assign (.of_expression (.name hcontext)) (.of_expression hcall))
  have hfinish : IsStatements "\ndefer __sentry_span.Finish()".toList := by
    have hcall := (IsExpression.name isName_span).callMember (w := "Finish".toList)
      (by decide) (List.forall_mem_nil _)
    simpa [Brackets.wrap, Brackets.opening, Brackets.closing] using
      (IsStatements.defer hcall).newlines_append (List.forall_mem_singleton.mpr rfl)
  have hall := hstart.append (hdescription.append (hassign.append hfinish))
  unfold spanText
  simpa using hall

theorem isStatements_statusText (hsentry : IsName sentry.toList) {status : String}
    (hstatus : IsName status.toList) : IsStatements (statusText sentry status).toList := by
  have hmember := (IsExpression.name isName_span).member (w := "Status".toList) (by decide)
  have hvalue := (IsExpression.name hsentry).member hstatus
  unfold statusText
  simpa using IsStatements.of_simple (.assign (.of_expression hmember) (.of_expression hvalue))

/-! ## Breadcrumbs -/

/-- A map literal has any entries. -/
theorem isExpression_map {cs : List Char} (h : IsLiteral cs) :
    IsExpression ("map[string]any".toList ++ Brackets.braces.wrap cs) := by
  have hstring : IsType "string".toList := .name (by decide)
  have hany : IsType "any".toList := .name (by decide)
  exact IsExpression.literal (by decide) (hstring.spelled_map hany .operand) h

theorem isEntry_of_mem_zipWith {vars : List Parameter} (hvars : ∀ v ∈ vars, IsName v.name.toList)
    (keys : List String) : ∀ entry ∈ List.zipWith
      (fun key (p : Parameter) => Text.quote key ++ ": " ++ p.name) keys vars,
      IsEntry entry.toList := by
  induction vars generalizing keys with
  | nil => cases keys <;> exact nofun
  | cons v vars ih =>
    obtain ⟨hv, hrest⟩ := List.forall_mem_cons.mp hvars
    cases keys with
    | nil => exact nofun
    | cons key keys =>
      refine List.forall_mem_cons.mpr ⟨?_, ih hrest keys⟩
      simpa using IsEntry.of_expressions (.quote key) (.name hv)

theorem isExpression_dataMap {vars : List Parameter} (hvars : ∀ v ∈ vars, IsName v.name.toList) :
    IsExpression (dataMap vars).toList := by
  have hmap := isExpression_map (.of_entries
    (List.forall_mem_map.mpr (isEntry_of_mem_zipWith hvars (dataKeys [] vars))))
  unfold dataMap
  simpa [Brackets.wrap, Brackets.opening, Brackets.closing, String.toList_intercalate] using hmap

theorem isExpression_errorMap {m : Method} (h : ∀ v ∈ m.vars, IsName v.name.toList) :
    IsExpression (errorMap m).toList := by
  unfold errorMap
  split
  · next err herr =>
    have herr := h err (Method.mem_vars_of_errorResult? herr)
    have hentry := IsEntry.of_expressions (.quote "err") (.name herr)
    have hquote : (Text.quote "err").toList = "\"err\"".toList := by decide
    rw [hquote] at hentry
    have hmap := isExpression_map (.of_entries (List.forall_mem_singleton.mpr hentry))
    simpa [Brackets.wrap, Brackets.opening, Brackets.closing] using hmap
  · exact isExpression_map (.of_entries (List.forall_mem_nil _))

theorem isListed_dataEntries (options : Options) {m : Method} {args : List Parameter}
    (hm : ∀ v ∈ m.vars, IsName v.name.toList) (hargs : ∀ v ∈ args, IsName v.name.toList) :
    ∀ entry ∈ dataEntries options m args, IsListed entry.toList := by
  have hentry : ∀ (key : String) {text value : String}, (Text.quote key).toList ++ [':', ' '] = text.toList →
      IsExpression value.toList → IsListed (text ++ value ++ ",").toList := by
    intro key text value hkey hvalue
    simpa [← hkey] using IsListed.of_expressions (.quote key) hvalue
  have hresults : IsExpression
      (if options.onlyError then errorMap m else dataMap m.results).toList := by
    split
    · exact isExpression_errorMap hm
    · exact isExpression_dataMap fun v hv => hm v (List.mem_append_right _ hv)
  refine List.forall_mem_append.mpr ⟨?_, ?_⟩ <;> split
  · exact nofun
  · exact List.forall_mem_singleton.mpr
      (hentry "args" (by decide) (isExpression_dataMap hargs))
  · exact nofun
  · exact List.forall_mem_singleton.mpr (hentry "results" (by decide) hresults)

theorem isListed_dataLines {entries : List String} (h : ∀ entry ∈ entries, IsListed entry.toList) :
    IsListed ((dataLines entries).flatMap fun line => '\n' :: line.toList) := by
  have hdata : ∀ {cs : List Char}, IsLiteral cs → IsListed ('\n' :: '\t' :: '\t' ::
      ("Data: map[string]any".toList ++ (Brackets.braces.wrap cs ++ [',']))) := by
    intro cs hcs
    have hname : IsExpression "Data".toList := .name (by decide)
    simpa using (IsListed.of_expressions hname (isExpression_map hcs)).line 2
  unfold dataLines
  split
  · exact hdata (.of_entries (List.forall_mem_nil _))
  · next hne =>
    have hlines : ∀ cs ∈ entries.map fun entry => '\n' :: '\t' :: '\t' :: '\t' :: entry.toList,
        IsListed cs := List.forall_mem_map.mpr fun entry hentry => (h entry hentry).line 3
    have hliteral := IsLiteral.of_lines ['\n', '\t', '\t'] (by simp) hlines
      (by simpa using hne)
    simpa [Brackets.wrap, Brackets.opening, Brackets.closing, List.flatMap_def,
      Function.comp_def] using hdata hliteral

theorem toList_intercalate_lines (first : String) (lines : List String) :
    ("\n".intercalate (first :: lines)).toList =
      first.toList ++ lines.flatMap fun line => '\n' :: line.toList := by
  rw [String.toList_intercalate, List.map_cons, Text.intercalate_cons, List.flatMap_map]
  rfl

/-- A breadcrumb's fields, each on a line. -/
theorem isLiteral_crumb (category message : String) {entries : List String}
    (h : ∀ entry ∈ entries, IsListed entry.toList) :
    IsLiteral ("\n\t\tCategory: ".toList ++ ((Text.quote category).toList ++
      (",\n\t\tMessage: ".toList ++ ((Text.quote message).toList ++ ',' ::
        ((dataLines entries).flatMap (fun line => '\n' :: line.toList) ++ ['\n', '\t']))))) := by
  have hcategory : IsExpression "Category".toList := .name (by decide)
  have hmessage : IsExpression "Message".toList := .name (by decide)
  have hcategory := (IsListed.of_expressions hcategory (.quote category)).line 2
  have hmessage := (IsListed.of_expressions hmessage (.quote message)).line 2
  have hitems := List.forall_mem_cons.mpr ⟨hcategory, List.forall_mem_cons.mpr
    ⟨hmessage, List.forall_mem_singleton.mpr (isListed_dataLines h)⟩⟩
  simpa using IsLiteral.of_lines ['\n', '\t'] (by simp) hitems (List.cons_ne_nil _ _)

theorem isExpression_crumb (hsentry : IsLiteralName sentry.toList) {cs : List Char}
    (h : IsLiteral cs) : IsExpression
      ('&' :: (sentry.toList ++ (".Breadcrumb".toList ++ Brackets.braces.wrap cs))) := by
  have htype : Spelled .operand [.nonterminal .qualifiedType]
      (sentry.toList ++ ".Breadcrumb".toList) := by
    have hname : IsName "Breadcrumb".toList := by decide
    have hmember : Spelled .other [.terminal .identifier] ("Breadcrumb".toList ++ []) :=
      .name hname (Nat.le_refl _) .nil free_nil
    have hmember : Spelled .other [.terminal .dot, .terminal .identifier] ".Breadcrumb".toList :=
      .operator_char (by decide) nofun (chunk_dot (by decide)) hmember
    exact .of_way [.terminal .identifier, .terminal .dot, .terminal .identifier] (by decide)
      (hsentry.spelled _ hmember (free_cons rfl _))
  have hliteral := IsExpression.literal (by decide) htype h
  rw [List.append_assoc] at hliteral
  exact hliteral.address hsentry.isWord

theorem isStatements_breadcrumb (hsentry : IsLiteralName sentry.toList)
    (hcontext : IsName context.toList) (category message : String) {entries : List String}
    (h : ∀ entry ∈ entries, IsListed entry.toList) : IsStatements ("\n".intercalate (
      ["if __sentry_hub := " ++ sentry ++ ".GetHubFromContext(" ++ context ++
          "); __sentry_hub != nil \x7b",
        "\t__sentry_hub.AddBreadcrumb(&" ++ sentry ++ ".Breadcrumb\x7b",
        "\t\tCategory: " ++ Text.quote category ++ ",",
        "\t\tMessage: " ++ Text.quote message ++ ","] ++ dataLines entries ++
      ["\t\x7d, nil)", "\x7d"])).toList := by
  have hhub : IsExpression "__sentry_hub".toList := .name (by decide)
  have hnil : IsExpression "nil".toList := .name (by decide)
  have hcondition : Spelled .other
      [.nonterminal .simpleStmt, .terminal .semicolon, .nonterminal .expression]
      ("__sentry_hub := " ++ sentry ++ ".GetHubFromContext(" ++ context ++
        "); __sentry_hub != nil").toList := by
    have hcall := (IsExpression.name hsentry.isName).callMember (w := "GetHubFromContext".toList)
      (by decide)
      (List.forall_mem_singleton.mpr (IsExpression.name hcontext).argument)
    have hdefine : IsSimple _ := .define (.of_expression hhub) (.of_expression hcall)
    have hcompare := hhub.compare (w := ['!', '=']) (o := .notEqual) hnil (by decide) (by decide)
    have hall := (hdefine.mono (Nat.zero_le Place.other.rank)).append
      (.operator (o := [';']) (t := .semicolon) (by decide)
        (.space (.inl rfl) (hcompare.spelled _))) (free_cons rfl _)
    simpa [Brackets.wrap, Brackets.opening, Brackets.closing] using hall
  have hcrumb := isExpression_crumb hsentry (isLiteral_crumb category message h)
  have hadd := hhub.callMember (w := "AddBreadcrumb".toList) (by decide)
    (List.forall_mem_cons.mpr ⟨hcrumb.argument, List.forall_mem_singleton.mpr hnil.argument⟩)
  have hspelled := (IsStatements.of_simple (.of_expression hadd)).spelled .other
  have hblock : Fills .braces .block _ := ⟨[.statements], by decide,
    (hspelled.space (.inr rfl)).newline.append_newlines (List.forall_mem_singleton.mpr rfl)⟩
  have hall := IsStatements.ifThen (.inr rfl) hcondition hblock
  rw [List.append_assoc, List.cons_append, toList_intercalate_lines]
  simpa [Brackets.wrap, Brackets.opening, Brackets.closing] using hall

/-! ## The hook -/

variable {m : Method}

theorem contextAndRest_eq_ok_iff {rest : List Parameter} {first : Parameter} :
    contextAndRest m = .ok (first, rest) ↔
      m.params = first :: rest ∧ first.type.isContext = true := by
  unfold contextAndRest
  split
  · next hparams => simp [hparams]
  · next context others hparams =>
    rw [hparams, List.cons.injEq]
    split
    · next hcontext =>
      rw [Except.ok.injEq, Prod.mk.injEq]
      constructor
      · rintro ⟨rfl, rfl⟩
        exact ⟨⟨rfl, rfl⟩, hcontext⟩
      · exact And.left
    · next hcontext =>
      constructor
      · exact nofun
      · rintro ⟨⟨rfl, -⟩, h⟩
        exact (hcontext h).elim

theorem isName_of_contextAndRest {rest : List Parameter} {first : Parameter} (hm : m.Legible)
    (h : contextAndRest m = .ok (first, rest)) : ∀ v ∈ first :: rest, IsName v.name.toList :=
  fun v hv => (hm.vars v (List.mem_append_left _ ((contextAndRest_eq_ok_iff.mp h).1 ▸ hv))).isName

theorem legible_spanFragment (options : Options) : (spanFragment options).Legible := by
  intro m table code H hm h
  obtain ⟨⟨first, rest⟩, hparams, h⟩ := Wrapper.bind_eq_ok.mp h
  cases h
  have hfirst := isName_of_contextAndRest hm hparams first List.mem_cons_self
  exact isStatements_spanText (isLiteralName_clientName H).isName hfirst options.spanOp m.name

theorem legible_statusFragment {status : String} (hstatus : IsName status.toList) :
    (statusFragment status).Legible := by
  intro m table code H hm h
  obtain ⟨_, -, h⟩ := Wrapper.bind_eq_ok.mp h
  cases h
  exact isStatements_statusText (isLiteralName_clientName H).isName hstatus

theorem legible_breadcrumbFragment (options : Options) :
    (breadcrumbFragment options).Legible := by
  intro m table code H hm h
  obtain ⟨⟨first, rest⟩, hparams, h⟩ := Wrapper.bind_eq_ok.mp h
  cases h
  obtain ⟨hfirst, hrest⟩ := List.forall_mem_cons.mp (isName_of_contextAndRest hm hparams)
  exact isStatements_breadcrumb (isLiteralName_clientName H) hfirst options.category m.name
    (isListed_dataEntries options (fun v hv => (hm.vars v hv).isName) hrest)

/-- The hook's code can be read, whatever its options. -/
theorem hook_legible (options : Options) : (hook options).Legible := by
  intro point capability hsome
  cases point with
  | preCall =>
    obtain ⟨-, heq⟩ := Option.ite_none_left_eq_some.mp hsome
    cases heq
    exact legible_spanFragment options
  | postCall =>
    cases hsome
    exact legible_breadcrumbFragment options
  | onSuccess | onError =>
    obtain ⟨-, heq⟩ := Option.ite_none_left_eq_some.mp hsome
    cases heq
    exact legible_statusFragment (by decide)

end Sentry

end Interposer
