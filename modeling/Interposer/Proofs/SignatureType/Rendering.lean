import Interposer.SignatureType
import Interposer.Proofs.Source.Types

/-! The text of types. A type is legible if the names in it are names to the grammar; its text can
then be read as a type (`Legible.rendered`). -/

namespace Interposer

open Source

namespace SignatureType

/-- Types with names that the grammar takes for names. -/
inductive Legible : SignatureType → Prop
  | slice {elem : SignatureType} : Legible elem → Legible (.slice elem)
  | array {length : Nat} {elem : SignatureType} : Legible elem → Legible (.array length elem)
  | map {key value : SignatureType} : Legible key → Legible value → Legible (.map key value)
  | pointer {elem : SignatureType} : Legible elem → Legible (.pointer elem)
  | func {params results : List SignatureType} {variadic : Bool} :
      (∀ t ∈ params, Legible t) → (∀ t ∈ results, Legible t) →
      Legible (.func params results variadic)
  | unqualified {path name : String} : IsName name.toList → Legible (.named "" path name)
  | qualified {qualifier path name : String} : IsName qualifier.toList → IsName name.toList →
      Legible (.named qualifier path name)

/-- What texts for a type have to be, on its own and as that of a variadic parameter. -/
structure Rendered (t : SignatureType) : Prop where
  isType : IsType t.render.toList
  isParam : IsParam t.renderVariadic.toList

theorem isResult_resultText {types : List SignatureType} (htypes : ∀ t ∈ types, Rendered t) :
    IsResult (resultText (renderAll types)).toList := by
  rw [renderAll_eq]
  cases types with
  | nil => exact .none
  | cons t types =>
    cases types with
    | nil =>
      have hsingle := IsResult.single (htypes t List.mem_cons_self).isType
      simpa [resultText] using hsingle
    | cons t' types =>
      have hitems : ∀ cs ∈ ((t :: t' :: types).map render).map String.toList, IsParam cs := by
        simp only [List.map_map, List.forall_mem_map]
        exact fun t ht => .of_type (htypes t ht).isType
      have hseveral := IsResult.several hitems
      simpa [resultText, Brackets.wrap, Brackets.opening, Brackets.closing,
        String.toList_intercalate] using hseveral

/-- Legible types can be read as types. -/
theorem Legible.rendered {t : SignatureType} (h : t.Legible) : t.Rendered := by
  have hother : ∀ {t : SignatureType}, t.renderVariadic = "..." ++ t.render →
      IsType t.render.toList → t.Rendered := by
    intro t hvariadic h
    exact ⟨h, by simpa [hvariadic] using IsParam.variadic h⟩
  induction h with
  | slice _ ih =>
    refine ⟨?_, ?_⟩
    · simpa [render] using ih.isType.slice
    · simpa [renderVariadic] using IsParam.variadic ih.isType
  | @array length elem _ ih =>
    refine hother rfl ?_
    have htext : render (.array length elem) = "[" ++ toString length ++ "]" ++ elem.render := rfl
    rw [htext]
    simpa using ih.isType.array length
  | map _ _ ihkey ihvalue =>
    refine hother rfl ?_
    simpa [render] using ihkey.isType.map ihvalue.isType
  | pointer _ ih => exact hother rfl (by simpa [render] using ih.isType.pointer)
  | @func params results variadic _ _ ihparams ihresults =>
    refine hother rfl ?_
    have hitems : ∀ cs ∈ (renderParams variadic params).map String.toList, IsParam cs :=
      List.forall_mem_map.mpr (forall_mem_renderParams
        (fun t ht => ⟨.of_type (ihparams t ht).isType, (ihparams t ht).isParam⟩) variadic)
    have hfunc := IsType.func hitems (isResult_resultText ihresults)
    simpa [render, Brackets.wrap, Brackets.opening, Brackets.closing,
      String.toList_intercalate] using hfunc
  | unqualified hname => exact hother rfl (by simpa [render] using IsType.name hname)
  | qualified hqualifier hname =>
    refine hother rfl ?_
    simpa [render, hqualifier.isEmpty_eq_false] using IsType.qualified hqualifier hname

end SignatureType

end Interposer
