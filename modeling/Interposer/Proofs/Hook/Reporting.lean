import Interposer.Config
import Interposer.Proofs.Generator
import Interposer.Proofs.Hook.Breadcrumb
import Interposer.Proofs.Wrapper.Execution
import Interposer.Proofs.Wrapper.Hygiene
import Interposer.Proofs.Wrapper.Rejection
import Interposer.Proofs.Wrapper.Scope

/-! Wrappers that report to Sentry, from the settings to the runs of their methods. Settings ask for
the hook once at most, so every method is reported once: in a span that is finished, by a breadcrumb
after its call and by a status after that. A wrapper cannot be written if a method does not take a
context first, and only then. A status tells whether the call has failed as long as `nil` is not the
name of a variable (`generate_reports`). -/

namespace Interposer

/-! ## Settings -/

namespace Config

theorem repeated?_eq_none_iff {before kinds : List String} :
    repeated? before kinds = none ↔ kinds.Nodup ∧ ∀ kind ∈ kinds, kind ∉ before := by
  induction kinds generalizing before with
  | nil => exact iff_of_true rfl ⟨.nil, nofun⟩
  | cons kind rest ih =>
    rw [repeated?, List.nodup_cons, List.forall_mem_cons]
    by_cases hmem : kind ∈ before
    · rw [if_pos (List.contains_iff_mem.mpr hmem)]
      exact iff_of_false nofun fun h => h.2.1 hmem
    · rw [if_neg (List.contains_iff_mem.not.mpr hmem), ih]
      simp only [List.mem_cons, not_or, hmem, not_false_eq_true, true_and]
      constructor
      · rintro ⟨hnodup, hrest⟩
        exact ⟨⟨fun h => (hrest kind h).1 rfl, hnodup⟩, fun k hk => (hrest k hk).2⟩
      · rintro ⟨⟨hkind, hnodup⟩, hrest⟩
        exact ⟨hnodup, fun k hk => ⟨fun heq => hkind (heq ▸ hk), hrest k hk⟩⟩

variable {c : Config}

theorem nodup_kinds_of_validate (h : c.validate = .ok ()) :
    (c.hooks.map HookSetting.kind).Nodup := by
  cases hrepeated : repeated? [] (c.hooks.map HookSetting.kind) with
  | none => exact (repeated?_eq_none_iff.mp hrepeated).1
  | some kind =>
    rw [validate, hrepeated] at h
    cases hname : c.interfaceName with
    | error why => rw [hname] at h; cases h
    | ok name =>
      cases hpackage : c.packageName <;> simp only [hname, hpackage, bind, Except.bind] at h <;>
        split_ifs at h

/-- Settings with the hook have no other one, as there is no other kind. -/
theorem hooks_eq_of_validate {options : Sentry.Options} (h : c.validate = .ok ())
    (hmem : .sentry options ∈ c.hooks) : c.hooks = [.sentry options] := by
  have hnodup := nodup_kinds_of_validate h
  rcases hhooks : c.hooks with _ | ⟨⟨first⟩, _ | ⟨⟨second⟩, rest⟩⟩
  · rw [hhooks] at hmem
    cases hmem
  · rw [hhooks] at hmem
    rw [List.mem_singleton.mp hmem]
  · rw [hhooks] at hnodup
    exact (List.nodup_cons.mp hnodup).1.elim List.mem_cons_self

end Config

namespace Sentry

open Wrapper

variable {options : Options} {m : Method} {table : ImportTable}

/-! ## Methods that take a context -/

def takesContext (m : Method) : Bool := m.params.head?.any (·.type.isContext)

/-- What the hook has against a method. -/
def objection? (m : Method) : Option Failure :=
  if takesContext m then none else some (noContext m)

theorem objection?_eq_none_iff : objection? m = none ↔ takesContext m = true := by
  simp [objection?]

theorem failure?_contextAndRest (m : Method) : failure? (contextAndRest m) = objection? m := by
  unfold contextAndRest objection? takesContext
  cases m.params with
  | nil => rfl
  | cons first rest =>
    simp only [List.head?_cons, Option.any_some]
    by_cases hcontext : first.type.isContext = true <;> simp [hcontext, failure?]

theorem exists_of_takesContext (h : takesContext m = true) :
    ∃ context args, contextAndRest m = .ok (context, args) := by
  have hnone := (failure?_contextAndRest m).trans (objection?_eq_none_iff.mpr h)
  obtain ⟨⟨context, args⟩, haccepted⟩ := failure?_eq_none_iff.mp hnone
  exact ⟨context, args, haccepted⟩

/-- At each point the hook objects to the same methods. -/
theorem failure?_capability {point : HookPoint} {capability : Capability}
    (h : (hook options).capability? point = some capability) (m : Method) (table : ImportTable) :
    failure? (capability m table) = failure? (contextAndRest m) := by
  have hbind : ∀ {α : Type} (f : Parameter × List Parameter → α),
      failure? (contextAndRest m >>= fun accepted => .ok (f accepted)) =
        failure? (contextAndRest m) := by
    intro α f
    exact failure?_bind_of_none fun _ => rfl
  cases point with
  | preCall =>
    obtain ⟨-, heq⟩ := Option.ite_none_left_eq_some.mp h
    cases heq
    exact hbind _
  | postCall =>
    cases h
    exact hbind _
  | onSuccess | onError =>
    obtain ⟨-, heq⟩ := Option.ite_none_left_eq_some.mp h
    cases heq
    exact hbind _

/-- Where all consultations have the same answer, so has the first one. -/
theorem firstFailure?_of_forall {cs : List Consultation} {answer : Option Failure} (hne : cs ≠ [])
    (h : ∀ c ∈ cs, failure? (c.answer table) = answer) : firstFailure? table cs = answer := by
  induction cs with
  | nil => exact (hne rfl).elim
  | cons c cs ih =>
    obtain ⟨hc, hcs⟩ := List.forall_mem_cons.mp h
    rw [firstFailure?, List.findSome?_cons, hc]
    cases answer with
    | some failure => rfl
    | none =>
      cases cs with
      | nil => rfl
      | cons c' cs => exact ih (List.cons_ne_nil _ _) hcs

theorem firstFailure?_method (m : Method) :
    firstFailure? table ((pointsOf m).flatMap (consultationsAt [hook options] m)) =
      objection? m := by
  have hpostCall : ⟨m, .postCall, breadcrumbFragment options⟩ ∈
      (pointsOf m).flatMap (consultationsAt [hook options] m) := by
    rw [List.mem_flatMap]
    refine ⟨.postCall, ?_, List.mem_singleton_self _⟩
    exact List.mem_append_left _ (.tail _ (.head _))
  apply firstFailure?_of_forall (List.ne_nil_of_mem hpostCall)
  intro c hc
  obtain ⟨point, -, hc⟩ := List.mem_flatMap.mp hc
  obtain ⟨h, hh, hc⟩ := List.mem_filterMap.mp hc
  obtain ⟨capability, hcapability, rfl⟩ := Option.map_eq_some_iff.mp hc
  rw [List.mem_singleton.mp hh] at hcapability
  rw [← failure?_contextAndRest]
  exact failure?_capability hcapability m table

theorem takesContext_of_fragments {f : Fragments} (h : fragments m table [hook options] = .ok f) :
    takesContext m = true := by
  have hnone : failure? (fragments m table [hook options]) = none :=
    failure?_eq_none_iff.mpr ⟨f, h⟩
  rwa [failure?_fragments, firstFailure?_method, objection?_eq_none_iff] at hnone

theorem failure?_file_hook (package typeName : String) (i : Interface) :
    failure? (Wrapper.file package typeName i [hook options] table) =
      i.methods.findSome? objection? := by
  rw [failure?_file]
  induction i.methods with
  | nil => rfl
  | cons m methods ih =>
    have hcons : consultations [hook options] (m :: methods) =
        (pointsOf m).flatMap (consultationsAt [hook options] m) ++
          consultations [hook options] methods := List.flatMap_cons
    rw [hcons, firstFailure?_append, firstFailure?_method, ih, List.findSome?_cons]
    cases objection? m <;> rfl

/-! ## Runs -/

/-- What a method does besides returning. -/
inductive Action where
  | startSpan
  | describeSpan
  /-- What is called runs in the span. -/
  | rebindContext
  | deferFinish
  | delegate
  | addBreadcrumb
  | setStatus (success : Bool)
  deriving DecidableEq, Repr

/-- The statement of an action. There is an empty line before the one that finishes the span. -/
def Action.text (options : Options) (table : ImportTable) (receiver : String) (m : Method)
    (context : Parameter) (args : List Parameter) : Action → String
  | startSpan => "__sentry_span := " ++ clientName table ++ ".StartSpan(" ++ context.name ++ ", " ++
      Text.quote options.spanOp ++ ")"
  | describeSpan => "__sentry_span.Description = " ++ Text.quote m.name
  | rebindContext => context.name ++ " = __sentry_span.Context()"
  | deferFinish => "\ndefer __sentry_span.Finish()"
  | delegate => (forwardingCall receiver m).text
  | addBreadcrumb => crumbText (clientName table) context.name options.category m.name
      (dataLines (dataEntries options m args))
  | setStatus success => "__sentry_span.Status = " ++ clientName table ++ "." ++
      if success then "SpanStatusOK" else "SpanStatusInternalError"

/-- What a method does in a run, one piece of code after the other, if its call is taken to have
succeeded or not. -/
def performed (options : Options) (success : Bool) : List (List Action) :=
  (if options.noPerf then [] else [[.startSpan, .describeSpan, .rebindContext, .deferFinish]]) ++
  [[.delegate], [.addBreadcrumb]] ++
  (if options.noPerf then [] else [[.setStatus success]])

/-- The run of a method that does this and returns its results. -/
def reportedRun (options : Options) (table : ImportTable) (receiver : String) (m : Method)
    (context : Parameter) (args : List Parameter) (success : Bool) : Run where
  events := (performed options success).map (fun actions =>
      .code ("\n".intercalate (actions.map (Action.text options table receiver m context args)))) ++
    if m.results.isEmpty then [] else [.returned (m.results.map (·.name))]
  ended := !m.results.isEmpty

variable {context : Parameter} {args : List Parameter}

theorem said_preCall (h : contextAndRest m = .ok (context, args)) :
    said .preCall m table [hook options] = if options.noPerf then [] else
      [.code (spanText (clientName table) context.name options.spanOp m.name)] := by
  cases hperf : options.noPerf <;>
    simp [said, Hook.codeAt?, hook, hperf, spanFragment, h, bind, Except.bind, Except.toOption]

theorem said_postCall (h : contextAndRest m = .ok (context, args)) :
    said .postCall m table [hook options] = [.code (crumbText (clientName table) context.name
      options.category m.name (dataLines (dataEntries options m args)))] := by
  simp [said, Hook.codeAt?, hook, breadcrumbFragment, crumbText, h, bind, Except.bind,
    Except.toOption]

theorem said_outcome (h : contextAndRest m = .ok (context, args)) (success : Bool) :
    said (if success then .onSuccess else .onError) m table [hook options] =
      if options.noPerf then [] else [.code (statusText (clientName table)
        (if success then "SpanStatusOK" else "SpanStatusInternalError"))] := by
  cases hperf : options.noPerf <;> cases success <;>
    simp [said, Hook.codeAt?, hook, hperf, statusFragment, h, bind, Except.bind, Except.toOption]

theorem spanText_eq (receiver : String) :
    spanText (clientName table) context.name options.spanOp m.name = "\n".intercalate
      ([Action.startSpan, .describeSpan, .rebindContext, .deferFinish].map
        (Action.text options table receiver m context args)) := by
  have hstatements : [Action.startSpan, .describeSpan, .rebindContext, .deferFinish].map
      (Action.text options table receiver m context args) =
        ["__sentry_span := " ++ clientName table ++ ".StartSpan(" ++ context.name ++ ", " ++
            Text.quote options.spanOp ++ ")",
          "__sentry_span.Description = " ++ Text.quote m.name,
          context.name ++ " = __sentry_span.Context()",
          "\ndefer __sentry_span.Finish()"] := rfl
  rw [hstatements]
  apply String.toList_injective
  unfold spanText
  simp

/-- The runs of a method with the hook. -/
theorem runAll_reported {f : Fragments} (h : fragments m table [hook options] = .ok f)
    (receiver : String) :
    ∃ context args, m.params = context :: args ∧ context.type.isContext = true ∧
      ∀ test, runAll test (methodBody receiver m f) =
        some (reportedRun options table receiver m context args (succeeded test m)) := by
  obtain ⟨context, args, haccepted⟩ := exists_of_takesContext (takesContext_of_fragments h)
  obtain ⟨hparams, hcontext⟩ := contextAndRest_eq_ok_iff.mp haccepted
  refine ⟨context, args, hparams, hcontext, ?_⟩
  intro test
  have hpre : runAll test (statements f.preCall) = _ := runAll_statements_at h .preCall nofun
  have hcall : runAll test [.raw (delegateCall receiver m)] =
      some ⟨[.code (forwardingCall receiver m).text], false⟩ := by
    rw [delegateCall_eq]
    rfl
  have hpost : runAll test (statements f.postCall) = _ := runAll_statements_at h .postCall nofun
  have hbody : methodBody receiver m f = joinGroups ([statements f.preCall,
      [.raw (delegateCall receiver m)], statements f.postCall, outcome m f] ++
        [returnOf m.results]) := rfl
  rw [hbody, runAll_joinGroups (.cons hpre (.cons hcall (.cons hpost
    (.cons (runAll_outcome h) .nil)))), said_preCall haccepted, said_postCall haccepted,
    said_outcome haccepted, reportedRun, performed, spanText_eq receiver]
  cases options.noPerf <;> simp only [Bool.false_eq_true, if_true, if_false] <;> rfl

/-! ## Truth -/

/-- What `test` says of variables comes of comparing them with `nil`. It is whether they are `nil`,
unless a variable or something at top level is called so; and a variable is equal to itself. -/
structure Compares (topLevel : List String) (m : Method) (isNil test : String → Bool) : Prop where
  predeclared : "nil" ∉ m.variableNames → "nil" ∉ topLevel → test = isNil
  itself : "nil" ∈ m.variableNames → test "nil" = true

/-- The method of the wrapper reports every call of `m`. -/
structure Reports (options : Options) (table : ImportTable) (topLevel : List String) (m : Method)
    (method : String × Wrapper.Function) : Prop where
  name : method.2.name = m.name
  run : ∃ context args, m.params = context :: args ∧ context.type.isContext = true ∧
    ∀ test, runAll test method.2.body =
      some (reportedRun options table method.1 m context args (succeeded test m))
  truthful : ∀ {isNil test}, Compares topLevel m isNil test → "nil" ∉ m.variableNames →
    "nil" ∉ topLevel → succeeded test m = succeeded isNil m
  /-- No failure is noticed if the error is called `nil`. -/
  captured : ∀ {isNil test}, Compares topLevel m isNil test →
    (∃ err, m.errorResult? = some err ∧ err.name = "nil") → succeeded test m = true

variable {topLevel : List String}

theorem reports_methodFunction {f : Fragments} (h : fragments m table [hook options] = .ok f)
    (typeName : String) :
    Reports options table topLevel m (receiverName typeName m, methodFunction typeName m f) where
  name := rfl
  run := runAll_reported h (receiverName typeName m)
  truthful := by
    intro isNil test H hvariables htopLevel
    rw [H.predeclared hvariables htopLevel]
  captured := by
    rintro isNil test H ⟨err, herr, hname⟩
    have hmem : "nil" ∈ m.variableNames :=
      hname ▸ List.mem_map_of_mem (Method.mem_vars_of_errorResult? herr)
    rw [succeeded, herr, Option.all_some, hname]
    exact H.itself hmem

/-- The runs of a method whose error is called `nil`. -/
theorem Compares.runAll_captured {isNil test : String → Bool} (H : Compares topLevel m isNil test)
    (herr : ∃ err, m.errorResult? = some err ∧ err.name = "nil") {f : Fragments}
    (h : fragments m table [hook options] = .ok f) (typeName : String) :
    ∃ context args, m.params = context :: args ∧
      runAll test (methodFunction typeName m f).body =
        some (reportedRun options table (receiverName typeName m) m context args true) := by
  have R : Reports options table topLevel m _ := reports_methodFunction h typeName
  obtain ⟨context, args, hparams, -, hrun⟩ := R.run
  rw [← R.captured H herr]
  exact ⟨context, args, hparams, hrun test⟩

end Sentry

/-! ## Generators -/

/-- Whether the type is `context.Context`. -/
def SourceType.isContext : SourceType → Bool
  | .named package name _ => package == "context" && name == "Context"
  | _ => false

theorem SourceType.isContext_toSignature (qualify : String → String) (t : SourceType) :
    (t.toSignature qualify).isContext = t.isContext := by
  cases t <;> rfl

/-- Whether the method is declared with a context first. -/
def MethodSpec.takesContext (spec : MethodSpec) : Bool :=
  spec.params.head?.any (·.type.isContext)

theorem Typed.takesContext_eq {table : ImportTable} {spec : MethodSpec} {m : Method}
    (h : Typed table spec m) : Sentry.takesContext m = spec.takesContext := by
  have hheads := congrArg (fun types => types.head?.any SignatureType.isContext) h.params
  simpa [Sentry.takesContext, MethodSpec.takesContext, List.head?_map, Option.any_map,
    Function.comp_def, SourceType.isContext_toSignature] using hheads

namespace Sentry

open Wrapper

/-- The failure of a wrapper because of a method that takes no context first. -/
def refusal (spec : MethodSpec) : Failure :=
  .precondition "sentry" spec.name "methods must accept a context.Context as their first argument"

def refusal? (spec : MethodSpec) : Option Failure :=
  if spec.takesContext then none else some (refusal spec)

theorem refusal?_eq_none_iff {spec : MethodSpec} :
    refusal? spec = none ↔ spec.takesContext = true := by
  simp [refusal?]

theorem refusal?_eq_some_iff {spec : MethodSpec} {failure : Failure} :
    refusal? spec = some failure ↔ spec.takesContext = false ∧ failure = refusal spec := by
  unfold refusal?
  cases spec.takesContext <;> simp [eq_comm]

theorem findSome?_objection? {table : ImportTable} {specs : List MethodSpec}
    {methods : List Method} (h : List.Forall₂ (Typed table) specs methods) :
    methods.findSome? objection? = specs.findSome? refusal? := by
  induction h with
  | nil => rfl
  | cons htyped _ ih =>
    rw [List.findSome?_cons, List.findSome?_cons, ih, objection?, htyped.takesContext_eq, noContext,
      htyped.name]
    rfl

variable {c : Config} {options : Options} {p : Package} {name package typeName : String}
  {g : Generator}

/-- **Reports.** With settings that ask for the hook, a wrapper is generated exactly if all methods
of the interface take a context first, and else the first that does not is named. All its methods
report what they do, and whether it has failed, as long as nothing is called `nil`. -/
theorem generate_reports (hvalidate : c.validate = .ok ()) (hhook : .sentry options ∈ c.hooks)
    (hnew : Generator.new p name c.buildHooks = .ok g) (hpackage : isIdentifier package = true)
    (htype : isIdentifier typeName = true) :
    ∃ members specs, p.resolve name = .ok members ∧ p.methodSet members = .ok specs ∧
      ((∃ text, g.generate package typeName = .ok text) ↔
        ∀ spec ∈ specs, spec.takesContext = true) ∧
      (∀ failure, g.generate package typeName = .error failure ↔
        ∃ earlier spec later, specs = earlier ++ spec :: later ∧
          (∀ spec' ∈ earlier, spec'.takesContext = true) ∧ spec.takesContext = false ∧
          failure = refusal spec) ∧
      ∀ text, g.generate package typeName = .ok text →
        ∃ file, Wrapper.file package typeName g.interface g.hooks g.imports = .ok file ∧
          file.render = text ∧
          List.Forall₂ (Reports options g.imports (file.aliases ++ file.declaredNames))
            g.interface.methods file.methods := by
  obtain ⟨specs, S⟩ := Generator.settled_of_new hnew
  obtain ⟨members, hresolve, hset⟩ := S.methodSet
  have hhooks : g.hooks = [hook options] := by
    rw [S.sameHooks, Config.buildHooks, c.hooks_eq_of_validate hvalidate hhook]
    rfl
  have hfailure : failure? (g.generate package typeName) = specs.findSome? refusal? := by
    rw [g.generate_eq_map hpackage htype, ← findSome?_objection? S.methods, hhooks,
      ← failure?_file_hook package typeName]
    cases Wrapper.file package typeName g.interface [hook options] g.imports <;> rfl
  refine ⟨members, specs, hresolve, hset, ?_, ?_, ?_⟩
  · rw [← failure?_eq_none_iff, hfailure, List.findSome?_eq_none_iff]
    simp only [refusal?_eq_none_iff]
  · intro failure
    rw [← failure?_eq_some_iff, hfailure, List.findSome?_eq_some_iff]
    simp only [refusal?_eq_none_iff, refusal?_eq_some_iff]
    constructor
    · rintro ⟨earlier, spec, later, hspecs, ⟨hspec, heq⟩, hearlier⟩
      exact ⟨earlier, spec, later, hspecs, hearlier, hspec, heq⟩
    · rintro ⟨earlier, spec, later, hspecs, hearlier, hspec, heq⟩
      exact ⟨earlier, spec, later, hspecs, ⟨hspec, heq⟩, hearlier⟩
  · intro text hgenerate
    obtain ⟨file, hfile, hrender⟩ := Generator.generate_eq_ok hgenerate
    refine ⟨file, hfile, hrender, ?_⟩
    rw [hhooks] at hfile
    exact forall₂_methods_of_file hfile fun m f hf => reports_methodFunction hf typeName

/-- Settings that ask for the hook alone. -/
def storeConfig : Config := { interface := some "Store", hooks := [.sentry {}] }

/-- However the call of this method ends, it is reported as one that has succeeded. -/
theorem failure_reported_as_success : ∃ g file m method, storeConfig.validate = .ok () ∧
    Generator.new vault "Store" storeConfig.buildHooks = .ok g ∧
    Wrapper.file "traced" "Wrapper" g.interface g.hooks g.imports = .ok file ∧
    g.generate "traced" "Wrapper" = .ok file.render ∧
    m ∈ g.interface.methods ∧ method ∈ file.methods ∧
    m.errorResult?.map (·.name) = some "nil" ∧
    ∀ isNil test, Compares (file.aliases ++ file.declaredNames) m isNil test →
      ∃ run, runAll test method.2.body = some run ∧
        .code "__sentry_span.Status = sentry.SpanStatusOK" ∈ run.events ∧
        .code "__sentry_span.Status = sentry.SpanStatusInternalError" ∉ run.events := by
  refine ⟨_, _, _, _, ?_, rfl, rfl, rfl, .head _, .head _, rfl, ?_⟩
  · decide +kernel
  · intro isNil test H
    obtain ⟨context, args, hparams, hrun⟩ := H.runAll_captured ⟨_, rfl, rfl⟩
      (show fragments _ _ [hook {}] = .ok _ from rfl) "Wrapper"
    cases hparams
    refine ⟨_, hrun, ?_, ?_⟩ <;> decide +kernel

end Sentry

end Interposer
