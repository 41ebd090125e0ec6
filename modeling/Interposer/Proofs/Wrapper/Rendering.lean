import Interposer.Wrapper
import Interposer.Proofs.Source.TopLevel
import Interposer.Proofs.SignatureType.Rendering

/-! The text of a generated file. If names are names to the grammar and verbatim code consists of
statements, each declaration can be read as such, and declares what it is meant to. -/

namespace Interposer.Wrapper

open Source

/-! ## Statements -/

/-- Statements whose verbatim parts are what they stand for. -/
inductive Statement.Legible : Statement → Prop
  | raw {code : String} : IsStatements code.toList → Legible (.raw code)
  | blank : Legible .blank
  | ifThen {condition : String} {body : List Statement} : IsExpression condition.toList →
      (∀ s ∈ body, Legible s) → Legible (.ifThen condition body)
  | ifElse {condition : String} {body alternative : List Statement} :
      IsExpression condition.toList → (∀ s ∈ body, Legible s) →
      (∀ s ∈ alternative, Legible s) → Legible (.ifElse condition body alternative)
  | returns {values : List String} : (∀ v ∈ values, IsExpression v.toList) → values ≠ [] →
      Legible (.returns values)

theorem renderAll_eq (body : List Statement) : renderAll body = body.map Statement.render := by
  induction body with
  | nil => rfl
  | cons s body ih => rw [renderAll, ih, List.map_cons]

theorem fills_blockText {statements : List String} (h : ∀ s ∈ statements, IsBody s.toList) :
    Fills .braces .block ('\n' :: (blockText statements).toList) := by
  unfold blockText
  split
  · exact ⟨[], by decide, .newlines (by simp) _⟩
  · have hbody : IsBody ("\n".intercalate statements).toList := by
      rw [String.toList_intercalate]
      exact .lines (List.forall_mem_map.mpr h)
    simpa using hbody.fills.indent.newline

theorem Statement.Legible.isBody {s : Statement} (h : s.Legible) : IsBody s.render.toList := by
  have hblock : ∀ {body : List Statement}, (∀ s ∈ body, IsBody s.render.toList) →
      Fills .braces .block ('\n' :: (blockText (renderAll body)).toList) := by
    intro body hbody
    rw [renderAll_eq]
    exact fills_blockText (List.forall_mem_map.mpr hbody)
  induction h with
  | raw hcode => exact .inr hcode
  | blank => exact .inl nofun
  | ifThen hcondition _ ih =>
    right
    simpa [render, Brackets.wrap, Brackets.opening, Brackets.closing] using
      IsStatements.ifThen (.inl rfl) (hcondition.spelled _) (hblock ih)
  | ifElse hcondition _ _ ih ih' =>
    right
    simpa [render, Brackets.wrap, Brackets.opening, Brackets.closing] using
      IsStatements.ifElse hcondition (hblock ih) (hblock ih')
  | @returns values hvalues hne =>
    right
    have hlist := IsExpressions.of_list (List.forall_mem_map.mpr hvalues) (by simpa using hne)
    have hempty : values.isEmpty = false := by simpa using hne
    simpa [render, returnText, hempty, String.toList_intercalate] using IsStatements.returns hlist

/-! ## Parameters and results -/

/-- Variables with names that the grammar takes for names, and types that can be read. -/
structure LegibleVariable (p : Parameter) : Prop where
  isName : IsName p.name.toList
  type : p.type.Legible

namespace LegibleVariable

variable {p : Parameter} {params : List Parameter}

theorem renderField_eq (h : LegibleVariable p) :
    renderField p = p.name ++ " " ++ p.type.render := by
  rw [renderField, h.isName.isEmpty_eq_false]
  rfl

theorem isParam (h : LegibleVariable p) : IsParam (renderField p).toList := by
  simpa [h.renderField_eq] using IsParam.named h.isName h.type.rendered.isType

theorem isParam_variadic (h : LegibleVariable p) :
    IsParam (p.name ++ " " ++ p.type.renderVariadic).toList := by
  have hdots : ∃ elem, IsType elem ∧ p.type.renderVariadic.toList = '.' :: '.' :: '.' :: elem := by
    cases htype : p.type with
    | slice elem =>
      cases (htype ▸ h.type : (SignatureType.slice elem).Legible) with
      | slice helem => exact ⟨_, helem.rendered.isType, by simp [SignatureType.renderVariadic]⟩
    | _ =>
      refine ⟨_, h.type.rendered.isType, ?_⟩
      simp [htype, SignatureType.renderVariadic]
  obtain ⟨elem, helem, htext⟩ := hdots
  simpa [htext] using IsParam.namedVariadic h.isName helem

theorem isParam_of_mem (h : ∀ p ∈ params, LegibleVariable p) (variadic : Bool) :
    ∀ s ∈ renderParams variadic params, IsParam s.toList := by
  induction params with
  | nil => exact nofun
  | cons p params ih =>
    obtain ⟨hp, hrest⟩ := List.forall_mem_cons.mp h
    cases params with
    | nil =>
      refine List.forall_mem_singleton.mpr ?_
      split
      · exact hp.isParam_variadic
      · exact hp.isParam
    | cons p' params => exact List.forall_mem_cons.mpr ⟨hp.isParam, ih hrest⟩

theorem fills_params (h : ∀ p ∈ params, LegibleVariable p) (variadic : Bool) :
    Fills .parens .params (", ".intercalate (renderParams variadic params)).toList := by
  rw [String.toList_intercalate]
  exact IsParam.fills (List.forall_mem_map.mpr (isParam_of_mem h variadic))

theorem isResult (h : ∀ p ∈ params, LegibleVariable p) :
    IsResult (renderResults params).toList := by
  have hmany : IsResult (' ' :: Brackets.parens.wrap
      ([',', ' '].intercalate ((params.map renderField).map String.toList))) := by
    refine .several ?_
    simp only [List.map_map, List.forall_mem_map]
    exact fun p hp => (h p hp).isParam
  cases params with
  | nil => exact .none
  | cons p params =>
    cases params with
    | nil =>
      have hempty := (h p List.mem_cons_self).isName.isEmpty_eq_false
      simpa [renderResults, hempty, Brackets.wrap, Brackets.opening, Brackets.closing] using hmany
    | cons p' params =>
      simpa [renderResults, Brackets.wrap, Brackets.opening, Brackets.closing,
        String.toList_intercalate] using hmany

end LegibleVariable

/-! ## Functions -/

/-- Functions whose parts can be read. -/
structure Function.Legible (f : Function) : Prop where
  isName : IsName f.name.toList
  params : ∀ p ∈ f.params, LegibleVariable p
  isResult : IsResult (renderResults f.results).toList
  body : ∀ s ∈ f.body, s.Legible

/-- A function without what stands before its name. -/
def Function.signatureText (f : Function) : String :=
  "(" ++ ", ".intercalate (renderParams f.variadic f.params) ++ ")" ++
    renderResults f.results ++ " \x7b\n" ++ blockText (renderAll f.body) ++ "\x7d"

namespace Function.Legible

variable {f : Function}

theorem isSignature (h : f.Legible) : IsItem.IsSignature f.signatureText.toList := by
  have hbody : Fills .braces .block ('\n' :: (blockText (renderAll f.body)).toList) := by
    rw [renderAll_eq]
    exact fills_blockText (List.forall_mem_map.mpr fun s hs => (h.body s hs).isBody)
  have hsignature :=
    IsItem.isSignature (LegibleVariable.fills_params h.params f.variadic) h.isResult hbody
  simpa [signatureText, Brackets.wrap, Brackets.opening, Brackets.closing] using hsignature

theorem isItem_func (h : f.Legible) (hreceiver : f.receiver = none) (hdoc : f.doc = none) :
    IsItem f.render.toList [.func f.name] := by
  have hfunc := IsItem.func h.isName h.isSignature
  simpa [render, hreceiver, hdoc, renderDoc, signatureText] using hfunc

theorem isItem_method (h : f.Legible) {receiver : Parameter}
    (hreceiver : f.receiver = some receiver) (hlegible : LegibleVariable receiver)
    (hdoc : f.doc = none) : IsItem f.render.toList [] := by
  have hfills : Fills .parens .params (renderField receiver).toList := by
    simpa [renderParams] using
      LegibleVariable.fills_params (List.forall_mem_singleton.mpr hlegible) false
  have hmethod := IsItem.method hfills h.isName h.isSignature
  simpa [render, hreceiver, hdoc, renderDoc, signatureText, Brackets.wrap, Brackets.opening,
    Brackets.closing] using hmethod

end Function.Legible

end Interposer.Wrapper
