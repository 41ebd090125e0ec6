import Interposer.Hook.Sentry
import Interposer.Proofs.Interface.Provenance
import Interposer.Proofs.Wrapper.Receiver

/-! Which names of a method stand in the way of the code that reports it. Names are only changed to
make room for aliases, so a variable that is declared with one of the names that this code uses
keeps it. But no other variable gets such a name, and no receiver (`generate_hygienic`). -/

namespace Interposer

namespace Sentry

/-- What the fragments of the hook, and the tests of errors around them, refer to besides variables
and the client library: the variables that they declare, and what Go predeclares. -/
def reservedNames : List String := ["__sentry_span", "__sentry_hub", "nil", "any", "string"]

variable {aliases : List String} {name declared : String}

/-- Names are made up with three letters in front, and none of the reserved ones has these. -/
theorem madeUp_notMem_reservedNames (h : IsMadeUp name) (n : Nat) :
    name ++ underscores n ∉ reservedNames := by
  have hreserved : ∀ word ∈ reservedNames, word.toList.head?.any ['p', 'r', 'e'].contains = false :=
    by decide
  have hhead : (name ++ underscores n).toList.head?.any ['p', 'r', 'e'].contains = true := by
    cases h with
    | param i => simp
    | result i => simp
    | err => simp
  intro hmem
  rw [hreserved _ hmem] at hhead
  cases hhead

theorem lengthened_notMem_reservedNames (name : String) (n : Nat) :
    name ++ underscores (n + 1) ∉ reservedNames := by
  have hreserved : ∀ word ∈ reservedNames, word.toList.getLast? ≠ some '_' := by decide
  intro hmem
  apply hreserved _ hmem
  simp [underscores, List.replicate_succ']

/-- Of the names that a variable may get, only the declared one can be reserved. -/
theorem eq_of_mem_reservedNames (h : NameOrigin aliases declared name)
    (hmem : name ∈ reservedNames) : name = declared := by
  cases h with
  | kept _ => rfl
  | madeUp n _ hmadeUp => exact (madeUp_notMem_reservedNames hmadeUp n hmem).elim
  | lengthened n _ _ => exact (lengthened_notMem_reservedNames _ n hmem).elim

/-- A receiver is one letter after underscores. -/
theorem receiverName_notMem_reservedNames {typeName : String} (h : isIdentifier typeName = true)
    (m : Method) : Wrapper.receiverName typeName m ∉ reservedNames := by
  have hreserved : ∀ word ∈ reservedNames, word.toList.dropLast.any (· ≠ '_') = true := by decide
  intro hmem
  obtain ⟨c, -, hinitial, -⟩ := Wrapper.initialName_eq h
  obtain ⟨n, hn⟩ := freshBefore_eq_append m.variableNames (Wrapper.initialName typeName)
  rw [Wrapper.receiverName_eq, hn, hinitial] at hmem
  obtain ⟨c', hc', hne⟩ := List.any_eq_true.mp (hreserved _ hmem)
  simp only [underscores, String.toList_append, String.toList_ofList, List.dropLast_concat] at hc'
  exact of_decide_eq_true hne (List.eq_of_mem_replicate hc')

/-- The variable has a reserved name if it is declared with one that is not an alias. -/
def ReservedAsDeclared (table : ImportTable) (declared : Variable) (v : Parameter) : Prop :=
  v.name ∈ reservedNames ↔ declared.name ∈ reservedNames ∧ table.pathOf? declared.name = none

theorem reservedAsDeclared {table : ImportTable} {declared : Variable} {v : Parameter}
    (horigin : NameOrigin table.aliases declared.name v.name) (hkeeps : KeepsName table declared v)
    (hunshadowing : table.pathOf? v.name = none) : ReservedAsDeclared table declared v := by
  have hreserved : ∀ word ∈ reservedNames, word ≠ "" ∧ word ≠ "_" := by decide
  constructor
  · intro hmem
    rw [← eq_of_mem_reservedNames horigin hmem]
    exact ⟨hmem, hunshadowing⟩
  · rintro ⟨hmem, halias⟩
    obtain ⟨hempty, hblank⟩ := hreserved _ hmem
    rwa [hkeeps hempty hblank halias]

/-- The reserved names of a method are those of its declaration. -/
structure ReservesAsDeclared (table : ImportTable) (spec : MethodSpec) (receiver : String)
    (f : Wrapper.Function) : Prop where
  receiver : receiver ∉ reservedNames
  params : List.Forall₂ (ReservedAsDeclared table) spec.params f.params
  results : List.Forall₂ (ReservedAsDeclared table) spec.results f.results

theorem forall₂_reservedAsDeclared {table : ImportTable} {vars : List Variable}
    {named : List Parameter} (hsourced : Sourced table.aliases vars named)
    (hkeeps : List.Forall₂ (KeepsName table) vars named)
    (hunshadowing : ∀ v ∈ named, table.pathOf? v.name = none) :
    List.Forall₂ (ReservedAsDeclared table) vars named := by
  induction hsourced with
  | nil => exact .nil
  | cons horigin _ ih =>
    obtain _ | ⟨hkeeps, hrest⟩ := hkeeps
    obtain ⟨hfirst, hothers⟩ := List.forall_mem_cons.mp hunshadowing
    exact .cons (reservedAsDeclared horigin hkeeps hfirst) (ih hrest hothers)

theorem reservesAsDeclared {table : ImportTable} {spec : MethodSpec} {m : Method}
    (h : Method.Named table spec m) {typeName : String} (htype : isIdentifier typeName = true)
    (f : Wrapper.Fragments) : ReservesAsDeclared table spec (Wrapper.receiverName typeName m)
      (Wrapper.methodFunction typeName m f) := by
  obtain ⟨hparams, hresults⟩ := List.forall_mem_append.mp h.wellNamed.unshadowing
  exact ⟨receiverName_notMem_reservedNames htype m,
    forall₂_reservedAsDeclared h.params h.wellNamed.params hparams,
    forall₂_reservedAsDeclared h.results h.wellNamed.results hresults⟩

end Sentry

/-- A package with an interface whose variables are named like what Go predeclares. -/
def vault : Package where
  name := "vault"
  path := "example.com/vault"
  declarations :=
    [.type "Store" [] (.interface
      [.method "Get" [.mk "ctx" (.named "context" "Context" []), .mk "any" (.basic "string")]
        [.mk "nil" (.basic "error")] false])]

namespace Generator

variable {p : Package} {name package typeName text : String} {hooks : List Hook} {g : Generator}

/-- **Hygiene.** In a generated file no receiver has a name that the code for reports uses, and of
the parameters and results just those which were declared with one and did not have to make room
for an alias. -/
theorem generate_hygienic (hnew : Generator.new p name hooks = .ok g)
    (hgenerate : g.generate package typeName = .ok text) :
    ∃ members specs file, p.resolve name = .ok members ∧ p.methodSet members = .ok specs ∧
      Wrapper.file package typeName g.interface g.hooks g.imports = .ok file ∧
      file.render = text ∧
      List.Forall₂ (fun spec method =>
        Sentry.ReservesAsDeclared g.imports spec method.1 method.2) specs file.methods := by
  obtain ⟨members, specs, hresolve, hset, hnamed⟩ := named_of_new hnew
  obtain ⟨-, htype⟩ := isIdentifier_of_generate hgenerate
  obtain ⟨file, hfile, hrender⟩ := generate_eq_ok hgenerate
  obtain ⟨pairs, hpairs, hmethods⟩ := Wrapper.methods_of_file hfile
  refine ⟨members, specs, file, hresolve, hset, hfile, hrender, ?_⟩
  rw [← hpairs, List.forall₂_map_right_iff] at hnamed
  rw [hmethods, List.forall₂_map_right_iff]
  exact hnamed.imp fun _ pair h => Sentry.reservesAsDeclared h htype pair.2

/-- The error of this method is tested against itself. -/
theorem gate_captured : ∃ g file, Generator.new vault "Store" [Sentry.hook {}] = .ok g ∧
    Wrapper.file "traced" "Store" g.interface g.hooks g.imports = .ok file ∧
    g.generate "traced" "Store" = .ok file.render ∧
    ∃ receiver get, (receiver, get) ∈ file.methods ∧ get.params.map (·.name) = ["ctx", "any"] ∧
      get.results.map (·.name) = ["nil"] ∧
      .ifElse "nil != nil" [.raw "__sentry_span.Status = sentry.SpanStatusInternalError"]
        [.raw "__sentry_span.Status = sentry.SpanStatusOK"] ∈ get.body := by
  refine ⟨_, _, rfl, rfl, rfl, _, _, .head _, rfl, rfl, ?_⟩
  exact .tail _ (.tail _ (.tail _ (.tail _ (.tail _ (.tail _ (.head _))))))

end Generator

end Interposer
