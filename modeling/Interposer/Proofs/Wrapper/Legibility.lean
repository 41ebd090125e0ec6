import Interposer.Proofs.Interface.Legibility
import Interposer.Proofs.Wrapper.Body
import Interposer.Proofs.Wrapper.Receiver

/-! The methods of a wrapper can be read: their bodies are made of names, of the code of hooks and
of tests of the error. -/

namespace Interposer.Wrapper

open Source

variable {m : Method} {table : ImportTable} {hooks : List Hook} {typeName : String}

/-! ## The call -/

theorem argument_of_mem {params : List Parameter} (hparams : ∀ p ∈ params, IsName p.name.toList)
    (variadic : Bool) :
    ∀ arg ∈ arguments variadic params, OneOf Source.arguments .other arg.toList := by
  induction params with
  | nil => exact nofun
  | cons p params ih =>
    obtain ⟨hp, hrest⟩ := List.forall_mem_cons.mp hparams
    cases params with
    | nil =>
      refine List.forall_mem_singleton.mpr ?_
      split
      · simpa using (IsExpression.name hp).spread
      · exact (IsExpression.name hp).argument
    | cons p' params => exact List.forall_mem_cons.mpr ⟨(IsExpression.name hp).argument, ih hrest⟩

theorem isStatements_delegateCall {receiver : String} (hreceiver : IsName receiver.toList)
    (hm : m.Legible) : IsStatements (delegateCall receiver m).toList := by
  obtain ⟨hparams, hresults⟩ := List.forall_mem_append.mp hm.vars
  have hwrapped := (IsExpression.name hreceiver).member (w := wrappedName.toList)
    (by decide)
  have hcall : IsExpression _ := hwrapped.callMember hm.isName (List.forall_mem_map.mpr
    (argument_of_mem (fun p hp => (hparams p hp).isName) m.variadic))
  unfold delegateCall
  split
  · simpa [Brackets.wrap, Brackets.opening, Brackets.closing, String.toList_intercalate] using
      IsStatements.of_simple (.of_expression hcall)
  · next hne =>
    have htargets : IsExpressions ([',', ' '].intercalate
        ((m.results.map (·.name)).map String.toList)) := by
      refine .of_list ?_ (by simpa using hne)
      simp only [List.map_map, List.forall_mem_map]
      exact fun p hp => .name (hresults p hp).isName
    simpa [Brackets.wrap, Brackets.opening, Brackets.closing, String.toList_intercalate] using
      IsStatements.of_simple (.assign htargets (.of_expression hcall))

/-! ## The body -/

theorem legible_joinGroups {groups : List (List Statement)}
    (h : ∀ group ∈ groups, ∀ s ∈ group, s.Legible) : ∀ s ∈ joinGroups groups, s.Legible := by
  induction groups with
  | nil => exact nofun
  | cons group groups ih =>
    obtain ⟨hgroup, hrest⟩ := List.forall_mem_cons.mp h
    obtain ⟨gap, hjoin, hgap⟩ := joinGroups_cons group groups
    rw [hjoin]
    simp only [List.forall_mem_append]
    exact ⟨hgroup, fun s hs => hgap s hs ▸ .blank, ih hrest⟩

theorem legible_statements (H : table.WellFormed) (hhooks : ∀ hook ∈ hooks, hook.Legible)
    (hm : m.Legible) {f : Fragments} (h : fragments m table hooks = .ok f) (point : HookPoint) :
    ∀ s ∈ statements (f.at point), s.Legible := by
  intro s hs
  rcases mem_statements hs with rfl | ⟨⟨hook, code⟩, hc, rfl⟩
  · exact .blank
  · obtain ⟨hhook, -, hcode⟩ := (mem_fragments_at h point).mp hc
    exact .raw ((hhooks hook hhook).isStatements H hm hcode)

theorem legible_gate {err : String} (herr : IsName err.toList) {onSuccess onError : List Statement}
    (hsuccess : ∀ s ∈ onSuccess, s.Legible) (herror : ∀ s ∈ onError, s.Legible) :
    ∀ s ∈ gate err onSuccess onError, s.Legible := by
  have hnil : IsExpression "nil".toList := .name (by decide)
  have hequal : IsExpression (err ++ " == nil").toList := by
    simpa using (IsExpression.name herr).compare (w := ['=', '=']) (o := .equal) hnil
      (by decide) (by decide)
  have hnotEqual : IsExpression (err ++ " != nil").toList := by
    simpa using (IsExpression.name herr).compare (w := ['!', '=']) (o := .notEqual) hnil
      (by decide) (by decide)
  unfold gate
  split
  · exact nofun
  · exact List.forall_mem_singleton.mpr (.ifThen hequal hsuccess)
  · exact List.forall_mem_singleton.mpr (.ifThen hnotEqual herror)
  · exact List.forall_mem_singleton.mpr (.ifElse hnotEqual herror hsuccess)

theorem legible_outcome (H : table.WellFormed) (hhooks : ∀ hook ∈ hooks, hook.Legible)
    (hm : m.Legible) {f : Fragments} (h : fragments m table hooks = .ok f) :
    ∀ s ∈ outcome m f, s.Legible := by
  have hsuccess := legible_statements H hhooks hm h .onSuccess
  unfold outcome
  split
  · next err herr =>
    have herr := hm.vars err (Method.mem_vars_of_errorResult? herr)
    exact legible_gate herr.isName hsuccess (legible_statements H hhooks hm h .onError)
  · exact hsuccess

theorem legible_returnOf {results : List Parameter} (h : ∀ p ∈ results, IsName p.name.toList) :
    ∀ s ∈ returnOf results, s.Legible := by
  unfold returnOf
  split
  · exact nofun
  · next hne =>
    exact List.forall_mem_singleton.mpr
      (.returns (List.forall_mem_map.mpr fun p hp => .name (h p hp)) (by simpa using hne))

theorem legible_methodBody (H : table.WellFormed) (hhooks : ∀ hook ∈ hooks, hook.Legible)
    (hm : m.Legible) {f : Fragments} (h : fragments m table hooks = .ok f) {receiver : String}
    (hreceiver : IsName receiver.toList) : ∀ s ∈ methodBody receiver m f, s.Legible := by
  have hresults : ∀ p ∈ m.results, IsName p.name.toList := fun p hp =>
    (hm.vars p (List.mem_append_right _ hp)).isName
  have hcall := Statement.Legible.raw (isStatements_delegateCall hreceiver hm)
  refine legible_joinGroups ?_
  simp only [List.forall_mem_cons]
  exact ⟨legible_statements H hhooks hm h .preCall, ⟨hcall, nofun⟩,
    legible_statements H hhooks hm h .postCall, legible_outcome H hhooks hm h,
    legible_returnOf hresults, nofun⟩

/-- The methods of a wrapper are legible, and declare nothing at top level. -/
theorem isItem_methodFunction (H : table.WellFormed) (hhooks : ∀ hook ∈ hooks, hook.Legible)
    (hm : m.Legible) {f : Fragments} (h : fragments m table hooks = .ok f)
    (htype : isIdentifier typeName = true) :
    IsItem (methodFunction typeName m f).render.toList [] := by
  obtain ⟨hparams, hresults⟩ := List.forall_mem_append.mp hm.vars
  have hreceiver := isName_of_isIdentifier (isIdentifier_receiverName htype m)
  have hlegible : (methodFunction typeName m f).Legible :=
    ⟨hm.isName, hparams, LegibleVariable.isResult hresults,
      legible_methodBody H hhooks hm h hreceiver⟩
  exact hlegible.isItem_method rfl
    ⟨hreceiver, .pointer (.unqualified (isName_of_isIdentifier htype))⟩ rfl

end Interposer.Wrapper
