import Interposer.Proofs.Text.Lines
import Interposer.Proofs.Text.Quoted
import Interposer.Proofs.Wrapper.Emission
import Interposer.Proofs.Wrapper.Body
import Interposer.Proofs.Wrapper.Imports
import Interposer.Proofs.Hook.Breadcrumb
import Interposer.Proofs.Generator

/-! Literals in generated files. What is quoted reads back wherever the literal stands, and a
literal is part of a line, so no indentation changes it: in the text of a file it is still there,
however deeply it is nested, and the text around it does not depend on it (`quotation_laws`). -/

namespace Interposer

/-! ## Literals -/

namespace Text

/-- The bytes of the literal that a text starts with, and what follows the literal. -/
def readLiteral? : List Char → Option (ByteArray × List Char)
  | '"' :: cs => readContent cs
  | _ => none

/-- The literal denotes the text whatever follows it, ends with its closing quote and fits in a
line. -/
structure Denotes (literal s : String) : Prop where
  reads : ∀ rest, readLiteral? (literal.toList ++ rest) = some (s.toByteArray, rest)
  closed : literal.toList.getLast? = some '"'
  no_end : ∀ c ∈ literal.toList, c ≠ '\n' ∧ c ≠ '\r'

theorem Denotes.eq {literal s s' : String} (h : Denotes literal s) (h' : Denotes literal s') :
    s = s' := by
  have hreads := (h.reads []).symm.trans (h'.reads [])
  rw [Option.some.injEq, Prod.mk.injEq] at hreads
  exact String.toByteArray_inj.mp hreads.1

theorem no_end_hexDigit (n : Nat) : hexDigit (n % 16) ≠ '\n' ∧ hexDigit (n % 16) ≠ '\r' := by
  have hall : ∀ k < 16, hexDigit k ≠ '\n' ∧ hexDigit k ≠ '\r' := by decide
  exact hall (n % 16) (Nat.mod_lt n (by decide))

theorem no_end_escapeChar (c : Char) : ∀ c' ∈ escapeChar c, c' ≠ '\n' ∧ c' ≠ '\r' := by
  unfold escapeChar
  split_ifs with hquote hbackslash hnewline hreturn htab hcontrol
  · simp
  · simp
  · simp
  · simp
  · simp
  · have hdigits := no_end_hexDigit
    simp [unicodeEscape, hdigits]
  · exact List.forall_mem_singleton.mpr ⟨hnewline, hreturn⟩

theorem denotes_quote (s : String) : Denotes (quote s) s where
  reads rest := by
    have hread := readContent_quoted s.toList rest
    simpa [readLiteral?, quote] using hread
  closed := by
    rw [quote, String.toList_ofList, ← List.cons_append]
    exact List.getLast?_concat
  no_end := by
    have hcontent : ∀ c ∈ s.toList.flatMap escapeChar, c ≠ '\n' ∧ c ≠ '\r' := by
      intro c hc
      obtain ⟨d, -, hc⟩ := List.mem_flatMap.mp hc
      exact no_end_escapeChar d c hc
    rw [quote, String.toList_ofList]
    exact List.forall_mem_cons.mpr ⟨by decide, List.forall_mem_append.mpr
      ⟨hcontent, List.forall_mem_singleton.mpr (by decide)⟩⟩

theorem quote_injective : Function.Injective quote := by
  intro s s' h
  have hs := denotes_quote s
  rw [h] at hs
  exact hs.eq (denotes_quote s')

theorem isPart_quote (s : String) : IsPart (quote s).toList :=
  ⟨by simp [quote], (denotes_quote s).no_end⟩

end Text

namespace Wrapper

open Text (IsPart continued)

/-! ## Nesting -/

/-- A statement with a place for another in a block of it. -/
inductive Frame where
  | ifThen (condition : String) (before after : List Statement)
  | body (condition : String) (before after other : List Statement)
  | alternative (condition : String) (other before after : List Statement)

def Frame.plug (s : Statement) : Frame → Statement
  | .ifThen condition before after => .ifThen condition (before ++ s :: after)
  | .body condition before after other => .ifElse condition (before ++ s :: after) other
  | .alternative condition other before after => .ifElse condition other (before ++ s :: after)

/-- A statement inside of others, the innermost first. -/
def nest (s : Statement) : List Frame → Statement
  | [] => s
  | frame :: frames => nest (frame.plug s) frames

/-- A place for a statement in a function of a file. -/
structure Site where
  file : File
  earlier : List TopLevel
  later : List TopLevel
  function : Function
  before : List Statement
  after : List Statement
  frames : List Frame

namespace Site

def filledFunction (site : Site) (s : Statement) : Function :=
  { site.function with body := site.before ++ nest s site.frames :: site.after }

def filled (site : Site) (s : Statement) : File :=
  { site.file with
    declarations := site.earlier ++ .func (site.filledFunction s) :: site.later }

end Site

/-- What a text is made into has it as a part, between texts that it makes no difference to. -/
def Carries (f : String → String) : Prop :=
  ∃ before after, ∀ w : String, IsPart w.toList → f w = before ++ w ++ after

namespace Carries

variable {f : String → String}

theorem wrapped (h : Carries f) (p q : String) : Carries fun w => p ++ f w ++ q := by
  obtain ⟨before, after, h⟩ := h
  refine ⟨p ++ before, after ++ q, fun w hw => ?_⟩
  simp only [h w hw, String.append_assoc]

theorem verbatim (lead rest : String) : Carries fun w => lead ++ w ++ rest :=
  ⟨lead, rest, fun _ _ => rfl⟩

theorem among (h : Carries f) (sep : String) (earlier later : List String) :
    Carries fun w => sep.intercalate (earlier ++ f w :: later) := by
  obtain ⟨before, after, hall⟩ := Text.intercalate_around sep earlier later
  simpa only [hall] using h.wrapped before after

theorem indent (h : Carries f) (depth : Nat) : Carries fun w => Text.indent depth (f w) := by
  obtain ⟨before, after, h⟩ := h
  obtain ⟨before', hindent⟩ := Text.indent_around depth before
  refine ⟨before', continued depth after, fun w hw => ?_⟩
  simp only [h w hw, hindent w after hw]

theorem block {s : String → Statement} (h : Carries fun w => (s w).render)
    (before after : List Statement) :
    Carries fun w => blockText (renderAll (before ++ s w :: after)) := by
  have hall := ((h.among "\n" (before.map Statement.render)
    (after.map Statement.render)).indent 1).wrapped "" "\n"
  simpa [blockText, renderAll_eq] using hall

theorem plug {s : String → Statement} (h : Carries fun w => (s w).render) (frame : Frame) :
    Carries fun w => (frame.plug (s w)).render := by
  cases frame with
  | ifThen condition before after =>
    have hall := (h.block before after).wrapped ("if " ++ condition ++ " \x7b\n") "\x7d"
    simpa [Frame.plug, Statement.render, String.append_assoc] using hall
  | body condition before after other =>
    have hall := (h.block before after).wrapped ("if " ++ condition ++ " \x7b\n")
      ("\x7d else \x7b\n" ++ blockText (renderAll other) ++ "\x7d")
    simpa [Frame.plug, Statement.render, String.append_assoc] using hall
  | alternative condition other before after =>
    have hall := (h.block before after).wrapped
      ("if " ++ condition ++ " \x7b\n" ++ blockText (renderAll other) ++ "\x7d else \x7b\n") "\x7d"
    simpa [Frame.plug, Statement.render, String.append_assoc] using hall

theorem nest {s : String → Statement} (h : Carries fun w => (s w).render)
    (frames : List Frame) : Carries fun w => (nest (s w) frames).render := by
  induction frames generalizing s with
  | nil => exact h
  | cons frame frames ih => exact ih (h.plug frame)

theorem site {s : String → Statement} (h : Carries fun w => (s w).render) (site : Site) :
    Carries fun w => (site.filled (s w)).render := by
  have hfunction : Carries fun w => (site.filledFunction (s w)).render := by
    have hall := ((h.nest site.frames).block site.before site.after).wrapped
      (site.function.header ++ "\n") "\x7d"
    have heq : ∀ w, (site.filledFunction (s w)).render = site.function.header ++ "\n" ++
        blockText (renderAll (site.before ++ Wrapper.nest (s w) site.frames :: site.after)) ++
          "\x7d" := by
      intro w
      rw [Function.render_eq_header, ← String.append_assoc]
      rfl
    simpa only [heq] using hall
  have hall := (hfunction.among "\n\n" ([renderHeader site.file.header,
    "package " ++ site.file.package] ++ renderImports site.file.imports ++
      site.earlier.map TopLevel.render) (site.later.map TopLevel.render)).wrapped "" "\n"
  simpa [File.render, Site.filled, TopLevel.render] using hall

end Carries

/-! ## Lines of code -/

/-- The text stands somewhere in another. -/
def StandsIn (t text : String) : Prop := ∃ before after, text = before ++ t ++ after

theorem StandsIn.trans {s t text : String} (h : StandsIn s t) (h' : StandsIn t text) :
    StandsIn s text := by
  obtain ⟨before, after, rfl⟩ := h
  obtain ⟨before', after', rfl⟩ := h'
  exact ⟨before' ++ before, after ++ after', by simp only [String.append_assoc]⟩

theorem standsIn_intercalate (sep : String) {t : String} {texts : List String} (h : t ∈ texts) :
    StandsIn t (sep.intercalate texts) := by
  obtain ⟨earlier, later, rfl⟩ := List.append_of_mem h
  obtain ⟨before, after, hall⟩ := Text.intercalate_around sep earlier later
  exact ⟨before, after, hall t⟩

theorem standsIn_declaration {file : File} {d : TopLevel} (h : d ∈ file.declarations) :
    StandsIn d.render file.render := by
  obtain ⟨before, after, hall⟩ := standsIn_intercalate "\n\n"
    (List.mem_append_right ([renderHeader file.header, "package " ++ file.package] ++
      renderImports file.imports) (List.mem_map_of_mem h))
  exact ⟨before, after ++ "\n", by rw [File.render, hall, String.append_assoc]⟩

/-- What follows the end of a line in verbatim code is indented as it is. -/
theorem standsIn_render {f : Function} {p w rest : String}
    (hcode : .raw (p ++ w ++ "\n" ++ rest) ∈ f.body) (hw : IsPart w.toList) (hrest : rest ≠ "") :
    ∃ rest', StandsIn (w ++ "\n" ++ Text.indent 1 (rest ++ rest')) f.render := by
  obtain ⟨earlier, later, hbody⟩ := List.append_of_mem hcode
  obtain ⟨before, after, hjoined⟩ := Text.intercalate_around "\n"
    (earlier.map Statement.render) (later.map Statement.render)
  obtain ⟨first, hfirst⟩ := Text.indent_around 1 (before ++ p)
  refine ⟨after, f.header ++ "\n" ++ first, "\n\x7d", ?_⟩
  have hne : rest ++ after ≠ "" := by simp [hrest]
  have hlines : "\n".intercalate (renderAll f.body) =
      before ++ p ++ w ++ ("\n" ++ (rest ++ after)) := by
    rw [renderAll_eq, hbody, List.map_append, List.map_cons, hjoined]
    simp only [Statement.render, String.append_assoc]
  have hblock : blockText (renderAll f.body) =
      Text.indent 1 ("\n".intercalate (renderAll f.body)) ++ "\n" := by
    simp [blockText, renderAll_eq, hbody]
  rw [Function.render_eq_header, hblock, hlines, hfirst w _ hw, Text.continued_newline 1 hne]
  simp only [String.append_assoc]
  rfl

theorem indent_code_line {w rest rest' : String} (hw : IsPart w.toList) (hrest : rest ≠ "") :
    Text.indent 1 (w ++ "\n" ++ rest ++ rest') =
      "\t" ++ w ++ "\n" ++ Text.indent 1 (rest ++ rest') := by
  have hne : rest ++ rest' ≠ "" := by simp [hrest]
  rw [String.append_assoc, Text.indent_line 1 hw hne]
  rfl

/-! ## Code of hooks -/

variable {m : Method} {table : ImportTable} {hooks : List Hook}

theorem mem_intersperse {α : Type} {sep x : α} {xs : List α} (h : x ∈ xs) :
    x ∈ xs.intersperse sep := by
  induction xs with
  | nil => cases h
  | cons y ys ih =>
    cases ys with
    | nil => exact h
    | cons z zs =>
      rw [List.intersperse_cons_cons]
      rcases List.mem_cons.mp h with rfl | h
      · exact List.mem_cons_self
      · exact List.mem_cons_of_mem y (List.mem_cons_of_mem sep (ih h))

theorem mem_joinGroups {s : Statement} {group : List Statement} {groups : List (List Statement)}
    (hgroup : group ∈ groups) (hs : s ∈ group) : s ∈ joinGroups groups := by
  induction groups with
  | nil => cases hgroup
  | cons first groups ih =>
    obtain ⟨gap, hjoin, -⟩ := joinGroups_cons first groups
    rw [hjoin]
    rcases List.mem_cons.mp hgroup with rfl | hgroup
    · exact List.mem_append_left _ hs
    · exact List.mem_append_right _ (List.mem_append_right gap (ih hgroup))

theorem exists_fragment {point : HookPoint} {cs : List Contribution}
    (h : contributions point m table hooks = .ok cs) {hook : Hook} (hhook : hook ∈ hooks) :
    ∃ fragment, hook.fragment point m table = .ok fragment := by
  induction hooks generalizing cs with
  | nil => cases hhook
  | cons first hooks ih =>
    obtain ⟨fragment, hfragment, h⟩ := bind_eq_ok.mp h
    obtain ⟨rest, hrest, -⟩ := bind_eq_ok.mp h
    rcases List.mem_cons.mp hhook with rfl | hhook
    · exact ⟨fragment, hfragment⟩
    · exact ih hrest hhook

/-- The points of which the code is not put behind a condition. -/
def Plain (point : HookPoint) : Prop := point = .preCall ∨ point = .postCall

theorem Plain.exists_fragment {point : HookPoint} (hpoint : Plain point) {f : Fragments}
    (h : fragments m table hooks = .ok f) {hook : Hook} (hhook : hook ∈ hooks) :
    ∃ fragment, hook.fragment point m table = .ok fragment := by
  rcases fragments_eq_ok h point with ⟨-, hcs⟩ | ⟨hunasked, -⟩
  · exact Wrapper.exists_fragment hcs hhook
  · exact absurd (by rcases hpoint with rfl | rfl <;> exact nofun) hunasked

theorem Plain.raw_mem_methodBody {point : HookPoint} (hpoint : Plain point) {f : Fragments}
    (h : fragments m table hooks = .ok f) {hook : Hook} (hhook : hook ∈ hooks) {code : String}
    (hcode : hook.fragment point m table = .ok (some code)) (receiver : String) :
    .raw code ∈ methodBody receiver m f := by
  have hconsulted : Consulted m point := by rcases hpoint with rfl | rfl <;> exact nofun
  have hmem := (mem_fragments_at h point).mpr ⟨hhook, hconsulted, hcode⟩
  have hraw : .raw code ∈ statements (f.at point) :=
    mem_intersperse (List.mem_map_of_mem (f := fun c => Statement.raw c.code) hmem)
  refine mem_joinGroups ?_ hraw
  rcases hpoint with rfl | rfl
  · exact List.mem_cons_self
  · exact List.mem_cons_of_mem _ (List.mem_cons_of_mem _ List.mem_cons_self)

/-- A line of a hook's code up to its end, and what of the code follows, stand in the method. -/
theorem Plain.standsIn_methodFunction {point : HookPoint} (hpoint : Plain point) {f : Fragments}
    (h : fragments m table hooks = .ok f) {hook : Hook} (hhook : hook ∈ hooks)
    {p w rest : String}
    (hcode : hook.fragment point m table = .ok (some (p ++ w ++ "\n" ++ rest)))
    (hw : IsPart w.toList) (hrest : rest ≠ "") (typeName : String) :
    ∃ rest', StandsIn (w ++ "\n" ++ Text.indent 1 (rest ++ rest'))
      (methodFunction typeName m f).render :=
  standsIn_render (f := methodFunction typeName m f)
    (hpoint.raw_mem_methodBody h hhook hcode (receiverName typeName m)) hw hrest

/-! ## The hook for Sentry -/

open Sentry (Options spanText crumbText clientName)

theorem spanText_eq_lines (sentry context op description : String) :
    ∃ rest, rest ≠ "" ∧ spanText sentry context op description =
      "__sentry_span := " ++ sentry ++ ".StartSpan(" ++ context ++ (", " ++ Text.quote op ++ ")") ++
        "\n" ++ ("__sentry_span.Description = " ++ Text.quote description ++ "\n" ++ rest) := by
  refine ⟨context ++ " = __sentry_span.Context()\n\ndefer __sentry_span.Finish()", by simp, ?_⟩
  apply String.toList_injective
  unfold spanText
  simp

theorem crumbText_eq_lines (sentry context category message : String) (data : List String) :
    ∃ rest, rest ≠ "" ∧ crumbText sentry context category message data =
      "if __sentry_hub := " ++ sentry ++ ".GetHubFromContext(" ++ context ++
        "); __sentry_hub != nil \x7b\n\t__sentry_hub.AddBreadcrumb(&" ++ sentry ++
        ".Breadcrumb\x7b" ++ "\n" ++ ("\t\tCategory: " ++ Text.quote category ++ "," ++ "\n" ++
          ("\t\tMessage: " ++ Text.quote message ++ "," ++ "\n" ++ rest)) := by
  have hne : data ++ ["\t\x7d, nil)", "\x7d"] ≠ [] := by simp
  refine ⟨"\n".intercalate (data ++ ["\t\x7d, nil)", "\x7d"]), ?_, ?_⟩
  · obtain ⟨before, hdata⟩ := Text.intercalate_after "\n" data
    rw [hdata]
    simp
  · rw [crumbText, List.append_assoc]
    simp only [List.cons_append, List.nil_append, String.intercalate_cons_cons,
      String.intercalate_cons_of_ne_nil hne]
    apply String.toList_injective
    simp [-String.toList_intercalate]

/-- A method's text has the literals for its breadcrumbs and its span, each in its place. -/
structure Quotes (options : Options) (m : Method) (text : String) : Prop where
  breadcrumb : ∃ category message, Text.Denotes category options.category ∧
    Text.Denotes message m.name ∧ StandsIn (".Breadcrumb\x7b\n\t\t\tCategory: " ++ category ++
      ",\n\t\t\tMessage: " ++ message ++ ",\n") text
  span : options.noPerf = false → ∃ op description, Text.Denotes op options.spanOp ∧
    Text.Denotes description m.name ∧ StandsIn (", " ++ op ++
      ")\n\t__sentry_span.Description = " ++ description ++ "\n") text

/-- Part of a line with a literal in it. -/
theorem isPart_around (lead s rest : String) (hlead : IsPart lead.toList)
    (hrest : IsPart rest.toList) : IsPart (lead ++ Text.quote s ++ rest).toList := by
  rw [String.toList_append, String.toList_append]
  exact (hlead.append (Text.denotes_quote s).no_end).append hrest.no_end

theorem quotes_methodFunction {f : Fragments} (h : fragments m table hooks = .ok f)
    {options : Options} (hhook : Sentry.hook options ∈ hooks) (typeName : String) :
    Quotes options m (methodFunction typeName m f).render where
  breadcrumb := by
    have hpoint : Plain .postCall := .inr rfl
    obtain ⟨fragment, hfragment⟩ := hpoint.exists_fragment h hhook
    obtain ⟨context, args, -, -, rfl⟩ := Sentry.breadcrumbFragment_eq_ok_iff.mp hfragment
    obtain ⟨rest, hrest, htext⟩ := crumbText_eq_lines (clientName table) context.name
      options.category m.name (Sentry.dataLines (Sentry.dataEntries options m args))
    rw [htext] at hfragment
    obtain ⟨rest', hstands⟩ :=
      hpoint.standsIn_methodFunction h hhook hfragment (by decide) (by simp) typeName
    have hcategory :=
      isPart_around "\t\tCategory: " options.category "," (by decide) (by decide)
    have hmessage := isPart_around "\t\tMessage: " m.name "," (by decide) (by decide)
    rw [indent_code_line hcategory (by simp), indent_code_line hmessage hrest] at hstands
    refine ⟨_, _, Text.denotes_quote options.category, Text.denotes_quote m.name,
      .trans ⟨"", Text.indent 1 (rest ++ rest'), ?_⟩ hstands⟩
    apply String.toList_injective
    simp
  span := by
    intro hperf
    have hpoint : Plain .preCall := .inl rfl
    obtain ⟨fragment, hfragment⟩ := hpoint.exists_fragment h hhook
    have hspan : (Sentry.hook options).fragment .preCall m table =
        Sentry.spanFragment options m table := by
      simp [Hook.fragment, Sentry.hook, hperf]
    obtain ⟨⟨context, args⟩, -, hok⟩ := bind_eq_ok.mp (hspan.symm.trans hfragment)
    cases hok
    obtain ⟨rest, hrest, htext⟩ :=
      spanText_eq_lines (clientName table) context.name options.spanOp m.name
    rw [htext] at hfragment
    have hop := isPart_around ", " options.spanOp ")" (by decide) (by decide)
    obtain ⟨rest', hstands⟩ :=
      hpoint.standsIn_methodFunction h hhook hfragment hop (by simp) typeName
    have hdescription : IsPart ("__sentry_span.Description = " ++ Text.quote m.name).toList := by
      rw [String.toList_append]
      exact IsPart.append (by decide) (Text.denotes_quote m.name).no_end
    rw [indent_code_line hdescription hrest] at hstands
    refine ⟨_, _, Text.denotes_quote options.spanOp, Text.denotes_quote m.name,
      .trans ⟨"", Text.indent 1 (rest ++ rest'), ?_⟩ hstands⟩
    apply String.toList_injective
    simp

theorem Site.denotes_filled (site : Site) (lead rest : String) : ∃ first last, ∀ s,
    ∃ literal, Text.Denotes literal s ∧
      (site.filled (.raw (lead ++ Text.quote s ++ rest))).render = first ++ literal ++ last := by
  obtain ⟨first, last, h⟩ :=
    Carries.site (s := fun w => .raw (lead ++ w ++ rest)) (.verbatim lead rest) site
  exact ⟨first, last, fun s => ⟨Text.quote s, Text.denotes_quote s, h _ (Text.isPart_quote s)⟩⟩

theorem quotes_of_generate {g : Generator} {package typeName text : String} {options : Options}
    (h : g.generate package typeName = .ok text) (hhook : Sentry.hook options ∈ g.hooks)
    {m : Method} (hm : m ∈ g.interface.methods) : ∃ f, fragments m g.imports g.hooks = .ok f ∧
      StandsIn (methodFunction typeName m f).render text ∧
      Quotes options m (methodFunction typeName m f).render := by
  obtain ⟨file, hfile, rfl⟩ := Generator.generate_eq_ok h
  obtain ⟨pairs, hpairs, hdeclarations, -⟩ := file_eq_ok hfile
  obtain ⟨hmethods, hfragments⟩ := instrument_eq_ok hpairs
  rw [← hmethods] at hm
  obtain ⟨pair, hpair, rfl⟩ := List.mem_map.mp hm
  have hf := hfragments pair hpair
  have hmem : .func (methodFunction typeName pair.1 pair.2) ∈ file.declarations := by
    rw [hdeclarations]
    exact List.mem_append_right _ (List.mem_map.mpr ⟨pair, hpair, rfl⟩)
  have hstands := standsIn_declaration hmem
  rw [TopLevel.render] at hstands
  exact ⟨pair.2, hf, hstands, quotes_methodFunction hf hhook typeName⟩

/-- **Quotation.** A quoted text reads back as what it was, in a file as everywhere. -/
structure QuotationLaws : Prop where
  denotes : ∀ s, Text.Denotes (Text.quote s) s
  injective : Function.Injective Text.quote
  /-- The rest of a file does not depend on what is quoted in it. -/
  nested : ∀ (site : Site) (lead rest : String), ∃ first last, ∀ s,
    ∃ literal, Text.Denotes literal s ∧
      (site.filled (.raw (lead ++ Text.quote s ++ rest))).render = first ++ literal ++ last
  reported : ∀ {g : Generator} {package typeName text : String} {options : Options},
    g.generate package typeName = .ok text → Sentry.hook options ∈ g.hooks →
    ∀ m ∈ g.interface.methods, ∃ f, fragments m g.imports g.hooks = .ok f ∧
      StandsIn (methodFunction typeName m f).render text ∧
      Quotes options m (methodFunction typeName m f).render

theorem quotation_laws : QuotationLaws where
  denotes := Text.denotes_quote
  injective := Text.quote_injective
  nested := Site.denotes_filled
  reported h hhook _ hm := quotes_of_generate h hhook hm

/-- Settings with texts that would break a literal if they stood in it as they are. -/
def awkwardOptions : Options := { category := "db\n\"query\"", spanOp := "C:\\u0041\t" }

theorem generate_shop_quotes : ∃ g text,
    Generator.new shop "Store" [Sentry.hook awkwardOptions] = .ok g ∧
    g.generate "traced" "Store" = .ok text ∧
    g.interface.methods.map (·.name) = ["Find", "Put"] ∧
    ∀ m ∈ g.interface.methods, ∃ f, fragments m g.imports g.hooks = .ok f ∧
      StandsIn (methodFunction "Store" m f).render text ∧
      Quotes awkwardOptions m (methodFunction "Store" m f).render := by
  have h : (do
      let g ← Generator.new shop "Store" [Sentry.hook awkwardOptions]
      g.generate "traced" "Store") = .ok _ := rfl
  obtain ⟨g, hnew, hgenerate⟩ := bind_eq_ok.mp h
  have hhook : Sentry.hook awkwardOptions ∈ g.hooks := by
    obtain ⟨specs, S⟩ := Generator.settled_of_new hnew
    rw [S.sameHooks]
    exact List.mem_singleton_self _
  have hnames : (Generator.new shop "Store" [Sentry.hook awkwardOptions]).toOption.map
      (fun g => g.interface.methods.map (·.name)) = some ["Find", "Put"] := by
    decide +kernel
  rw [hnew] at hnames
  exact ⟨g, _, hnew, hgenerate, Option.some.inj hnames,
    fun m hm => quotation_laws.reported hgenerate hhook m hm⟩

end Wrapper

end Interposer
