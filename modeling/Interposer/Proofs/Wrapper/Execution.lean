import Interposer.Proofs.Wrapper.Body
import Mathlib.Data.List.Forall2

/-! Runs of a method's body. A piece of verbatim code is one event, and a condition tells whether a
variable is `nil`. Whatever the outcome of the call, a run goes through the fragments of the hooks
in their order, each one once and none at a point where it does not belong. -/

namespace Interposer

/-- The code that the hook adds at a point, if it adds any. -/
def Hook.codeAt? (h : Hook) (point : HookPoint) (m : Method) (table : ImportTable) :
    Option String :=
  (h.capability? point).bind fun capability => (capability m table).toOption.join

namespace Wrapper

inductive Event where
  | code (text : String)
  | returned (values : List String)
  deriving DecidableEq, Repr

structure Run where
  events : List Event
  /-- Whether the run has come to a return, after which nothing is executed. -/
  ended : Bool
  deriving DecidableEq, Repr

/-- What a text has before `suffix`, if it ends with that. -/
def before? (suffix text : String) : Option String :=
  if suffix.toList.isSuffixOf text.toList then
    some (String.ofList (text.toList.take (text.toList.length - suffix.toList.length)))
  else none

/-- The truth of a condition, if it is one that compares a variable with `nil`. -/
def holds? (isNil : String → Bool) (condition : String) : Option Bool :=
  match before? " == nil" condition, before? " != nil" condition with
  | some name, _ => some (isNil name)
  | none, some name => some !isNil name
  | none, none => none

mutual

/-- Runs a statement, where `isNil` tells which variables are `nil`; there is no run if a condition
is about anything else. -/
def Statement.run (isNil : String → Bool) : Statement → Option Run
  | .raw code => some ⟨[.code code], false⟩
  | .blank => some ⟨[], false⟩
  | .ifThen condition body => do
    if ← holds? isNil condition then runAll isNil body else some ⟨[], false⟩
  | .ifElse condition body alternative => do
    if ← holds? isNil condition then runAll isNil body else runAll isNil alternative
  | .returns values => some ⟨[.returned values], true⟩

def runAll (isNil : String → Bool) : List Statement → Option Run
  | [] => some ⟨[], false⟩
  | s :: rest => do
    let first ← s.run isNil
    if first.ended then some first
    else
      let others ← runAll isNil rest
      some ⟨first.events ++ others.events, others.ended⟩

end

/-! ## Conditions -/

theorem before?_append (name suffix : String) : before? suffix (name ++ suffix) = some name := by
  rw [before?, if_pos]
  · simp
  · rw [List.isSuffixOf_iff_suffix, String.toList_append]
    exact List.suffix_append ..

theorem before?_eq_none {suffix suffix' : String} (name : String)
    (hlength : suffix.toList.length = suffix'.toList.length) (hne : suffix ≠ suffix') :
    before? suffix (name ++ suffix') = none := by
  rw [before?, if_neg]
  rw [List.isSuffixOf_iff_suffix, String.toList_append]
  intro hsuffix
  have hlists := (List.suffix_of_suffix_length_le hsuffix (List.suffix_append ..)
    (Nat.le_of_eq hlength)).eq_of_length hlength
  exact hne (String.toList_injective hlists)

theorem holds?_eq_nil (isNil : String → Bool) (name : String) :
    holds? isNil (name ++ " == nil") = some (isNil name) := by
  rw [holds?, before?_append]

theorem holds?_ne_nil (isNil : String → Bool) (name : String) :
    holds? isNil (name ++ " != nil") = some !isNil name := by
  have hother : before? " == nil" (name ++ " != nil") = none :=
    before?_eq_none name (by simp) (by simp)
  rw [holds?, hother, before?_append]

/-! ## Statements one after the other -/

section

variable {isNil : String → Bool}

theorem runAll_cons {s : Statement} {events : List Event} (h : s.run isNil = some ⟨events, false⟩)
    (rest : List Statement) : runAll isNil (s :: rest) =
      (runAll isNil rest).map fun r => ⟨events ++ r.events, r.ended⟩ := by
  simp only [runAll, h, Option.bind_eq_bind, Option.bind_some]
  cases runAll isNil rest <;> rfl

theorem runAll_append {group : List Statement} {events : List Event}
    (h : runAll isNil group = some ⟨events, false⟩) (rest : List Statement) :
    runAll isNil (group ++ rest) =
      (runAll isNil rest).map fun r => ⟨events ++ r.events, r.ended⟩ := by
  induction group generalizing events with
  | nil =>
    cases h
    simp
  | cons s group ih =>
    obtain ⟨⟨first, ended⟩, hs, h⟩ := Option.bind_eq_some_iff.mp h
    cases ended with
    | true => cases h
    | false =>
      obtain ⟨⟨others, _⟩, hgroup, h⟩ := Option.bind_eq_some_iff.mp h
      cases h
      rw [List.cons_append, runAll_cons hs, ih hgroup, Option.map_map]
      simp [Function.comp_def]

theorem runAll_singleton (s : Statement) : runAll isNil [s] = s.run isNil := by
  simp only [runAll]
  cases s.run isNil with
  | none => rfl
  | some r => rcases r with ⟨events, _ | _⟩ <;> simp

theorem runAll_blanks {gap : List Statement} (h : ∀ s ∈ gap, s = .blank) :
    runAll isNil gap = some ⟨[], false⟩ := by
  induction gap with
  | nil => rfl
  | cons s gap ih =>
    obtain ⟨rfl, hgap⟩ := List.forall_mem_cons.mp h
    rw [runAll_cons rfl, ih hgap]
    rfl

theorem runAll_statements (cs : List Contribution) :
    runAll isNil (statements cs) = some ⟨cs.map (.code ·.code), false⟩ := by
  induction cs with
  | nil => rfl
  | cons c cs ih =>
    cases cs with
    | nil => rfl
    | cons d cs =>
      have hcons : statements (c :: d :: cs) = .raw c.code :: .blank :: statements (d :: cs) := rfl
      rw [hcons, runAll_cons rfl, runAll_cons rfl, ih]
      rfl

/-- Groups are run one after the other; the lines between them do nothing. -/
theorem runAll_joinGroups_cons {group : List Statement} {events : List Event}
    (h : runAll isNil group = some ⟨events, false⟩) (groups : List (List Statement)) :
    runAll isNil (joinGroups (group :: groups)) =
      (runAll isNil (joinGroups groups)).map fun r => ⟨events ++ r.events, r.ended⟩ := by
  obtain ⟨gap, hjoin, hgap⟩ := joinGroups_cons group groups
  rw [hjoin, runAll_append h, runAll_append (runAll_blanks hgap), Option.map_map]
  simp [Function.comp_def]

/-- Of the two groups behind a test of an error, the one for its outcome is run. -/
theorem runAll_gate (err : String) (onSuccess onError : List Statement) :
    runAll isNil (gate err onSuccess onError) =
      if isNil err then runAll isNil onSuccess else runAll isNil onError := by
  have hnothing : runAll isNil [] = some ⟨[], false⟩ := rfl
  cases onSuccess with
  | nil =>
    cases onError with
    | nil => exact (ite_self _).symm
    | cons s rest =>
      have hgate : gate err [] (s :: rest) = [.ifThen (err ++ " != nil") (s :: rest)] := rfl
      rw [hgate, runAll_singleton, Statement.run, holds?_ne_nil, hnothing]
      cases isNil err <;> rfl
  | cons s rest =>
    cases onError with
    | nil =>
      have hgate : gate err (s :: rest) [] = [.ifThen (err ++ " == nil") (s :: rest)] := rfl
      rw [hgate, runAll_singleton, Statement.run, holds?_eq_nil, hnothing]
      cases isNil err <;> rfl
    | cons s' rest' =>
      have hgate : gate err (s :: rest) (s' :: rest') =
          [.ifElse (err ++ " != nil") (s' :: rest') (s :: rest)] := rfl
      rw [hgate, runAll_singleton, Statement.run, holds?_ne_nil]
      cases isNil err <;> rfl

/-! ## The trace of a method -/

variable {m : Method} {table : ImportTable} {hooks : List Hook}

theorem contributions_codes {point : HookPoint} {cs : List Contribution}
    (h : contributions point m table hooks = .ok cs) :
    cs.map (·.code) = hooks.filterMap (·.codeAt? point m table) := by
  induction hooks generalizing cs with
  | nil => cases h; rfl
  | cons hook hooks ih =>
    obtain ⟨fragment, hfragment, h⟩ := bind_eq_ok.mp h
    obtain ⟨rest, hrest, h⟩ := bind_eq_ok.mp h
    have hcode : hook.codeAt? point m table = fragment := by
      unfold Hook.fragment at hfragment
      unfold Hook.codeAt?
      split at hfragment
      · next hnone => cases hfragment; rw [hnone]; rfl
      · next hsome => rw [hsome, Option.bind_some, hfragment]; cases fragment <;> rfl
    rw [List.filterMap_cons, hcode, ← ih hrest]
    cases fragment <;> cases h <;> rfl

/-- The events of the fragments for a point, in the order of the hooks. -/
def said (point : HookPoint) (m : Method) (table : ImportTable) (hooks : List Hook) : List Event :=
  (hooks.filterMap (·.codeAt? point m table)).map .code

theorem runAll_statements_at {f : Fragments} (h : fragments m table hooks = .ok f)
    (point : HookPoint) (hconsulted : Consulted m point) :
    runAll isNil (statements (f.at point)) = some ⟨said point m table hooks, false⟩ := by
  rcases fragments_eq_ok h point with ⟨-, hcs⟩ | ⟨hnot, -⟩
  · rw [runAll_statements, said, ← contributions_codes hcs, List.map_map]
    rfl
  · exact (hnot hconsulted).elim

/-- Whether a call has succeeded: it has no error to return, or that error is `nil`. -/
def succeeded (isNil : String → Bool) (m : Method) : Bool :=
  m.errorResult?.all fun err => isNil err.name

theorem runAll_outcome {f : Fragments} (h : fragments m table hooks = .ok f) :
    runAll isNil (outcome m f) =
      some ⟨said (if succeeded isNil m then .onSuccess else .onError) m table hooks, false⟩ := by
  have hsuccess : runAll isNil (statements f.onSuccess) = _ :=
    runAll_statements_at h .onSuccess nofun
  unfold outcome succeeded
  split
  · next err herr =>
    have herror : runAll isNil (statements f.onError) = _ :=
      runAll_statements_at h .onError fun _ => by rw [herr]; rfl
    rw [herr, Option.all_some, runAll_gate, hsuccess, herror]
    cases isNil err.name <;> rfl
  · next hnone => rw [hnone, hsuccess]; rfl

theorem runAll_returnOf (results : List Parameter) : runAll isNil (returnOf results) =
    some ⟨if results.isEmpty then [] else [.returned (results.map (·.name))],
      !results.isEmpty⟩ := by
  cases results <;> rfl

/-- Groups that end by themselves are run one after the other, and the results are returned last. -/
theorem runAll_joinGroups {groups : List (List Statement)} {events : List (List Event)}
    (h : List.Forall₂ (fun group es => runAll isNil group = some ⟨es, false⟩) groups events)
    (results : List Parameter) :
    runAll isNil (joinGroups (groups ++ [returnOf results])) = some
      ⟨events.flatten ++ if results.isEmpty then [] else [.returned (results.map (·.name))],
        !results.isEmpty⟩ := by
  induction h with
  | nil =>
    have hlast : joinGroups [returnOf results] = returnOf results := by
      cases returnOf results <;> rfl
    rw [List.nil_append, hlast, runAll_returnOf]
    rfl
  | cons hgroup _ ih =>
    rw [List.cons_append, runAll_joinGroups_cons hgroup, ih, List.flatten_cons, Option.map_some,
      List.append_assoc]

/-- **Runs of a method.** Whichever variables are `nil` after the call, the body of a method runs
the fragments for before the call, the call, the fragments for after it and those for its outcome,
and returns all results, if there are any. -/
theorem run_methodFunction {f : Fragments} (h : fragments m table hooks = .ok f)
    (typeName : String) (isNil : String → Bool) :
    runAll isNil (methodFunction typeName m f).body = some
      { events := said .preCall m table hooks ++
          .code (forwardingCall (receiverName typeName m) m).text ::
          said .postCall m table hooks ++
          said (if succeeded isNil m then .onSuccess else .onError) m table hooks ++
          if m.results.isEmpty then [] else [.returned (m.results.map (·.name))]
        ended := !m.results.isEmpty } := by
  have hpre : runAll isNil (statements f.preCall) = _ :=
    runAll_statements_at h .preCall nofun
  have hpost : runAll isNil (statements f.postCall) = _ :=
    runAll_statements_at h .postCall nofun
  have hcall : runAll isNil [.raw (delegateCall (receiverName typeName m) m)] =
      some ⟨[.code (forwardingCall (receiverName typeName m) m).text], false⟩ := by
    rw [delegateCall_eq]
    rfl
  have hbody : (methodFunction typeName m f).body = joinGroups [statements f.preCall,
      [.raw (delegateCall (receiverName typeName m) m)], statements f.postCall, outcome m f,
      returnOf m.results] := rfl
  have hlast : joinGroups [returnOf m.results] = returnOf m.results := by
    cases returnOf m.results <;> rfl
  rw [hbody, runAll_joinGroups_cons hpre, runAll_joinGroups_cons hcall,
    runAll_joinGroups_cons hpost, runAll_joinGroups_cons (runAll_outcome h), hlast,
    runAll_returnOf]
  simp

/-- A hook that marks some points of every method. -/
def marker (name : String) (points : List HookPoint) : Hook where
  name
  imports := []
  capability? point :=
    if points.contains point then some fun _ _ => .ok (some (name ++ " " ++ point.name)) else none

def putMethod : Method where
  name := "Put"
  params := [⟨"ctx", .named "context" "context" "Context"⟩, ⟨"ids", .slice (.predeclared "int")⟩]
  results := [⟨"n", .predeclared "int"⟩, ⟨"err", .predeclared "error"⟩]
  variadic := true

/-- Both outcomes of a method with an error, between hooks that have something to say at different
points. -/
theorem run_putMethod : ∃ f, fragments putMethod .empty
      [marker "log" [.onError, .preCall], marker "time" [.preCall, .postCall, .onSuccess]] = .ok f ∧
    runAll (fun _ => false) (methodFunction "Store" putMethod f).body = some
      ⟨[.code "log pre-call", .code "time pre-call", .code "n, err = s.wrapped.Put(ctx, ids...)",
        .code "time post-call", .code "log on-error", .returned ["n", "err"]], true⟩ ∧
    runAll (· == "err") (methodFunction "Store" putMethod f).body = some
      ⟨[.code "log pre-call", .code "time pre-call", .code "n, err = s.wrapped.Put(ctx, ids...)",
        .code "time post-call", .code "time on-success", .returned ["n", "err"]], true⟩ := by
  have h : fragments putMethod .empty [marker "log" [.onError, .preCall],
      marker "time" [.preCall, .postCall, .onSuccess]] = .ok _ := rfl
  exact ⟨_, h, by rw [run_methodFunction h]; rfl, by rw [run_methodFunction h]; rfl⟩

end

end Wrapper

end Interposer
