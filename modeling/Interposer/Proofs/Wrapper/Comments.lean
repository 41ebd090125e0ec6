import Interposer.Wrapper.Render
import Interposer.Proofs.Text.Span
import Interposer.Proofs.SignatureType.Rendering

/-! The comments of a generated file. Names and legible types have no ends of lines in their text,
so what is said about them stays in its line. -/

namespace Interposer.Wrapper

open Source

/-- A text that a comment can hold in a line. -/
def IsLine (cs : List Char) : Prop := ∀ c ∈ cs, c ≠ '\n' ∧ c ≠ '\r' ∧ c ≠ '\x00'

section

variable {cs cs' sep : List Char} {items : List (List Char)}

@[simp]
theorem isLine_nil : IsLine [] := List.forall_mem_nil _

@[simp]
theorem isLine_cons {c : Char} :
    IsLine (c :: cs) ↔ (c ≠ '\n' ∧ c ≠ '\r' ∧ c ≠ '\x00') ∧ IsLine cs :=
  List.forall_mem_cons

@[simp]
theorem isLine_append : IsLine (cs ++ cs') ↔ IsLine cs ∧ IsLine cs' := List.forall_mem_append

theorem IsLine.intercalate (hsep : IsLine sep) (hitems : ∀ cs ∈ items, IsLine cs) :
    IsLine (sep.intercalate items) := by
  induction items with
  | nil => exact isLine_nil
  | cons cs items ih =>
    obtain ⟨hcs, hrest⟩ := List.forall_mem_cons.mp hitems
    cases items with
    | nil => simpa using hcs
    | cons cs' items =>
      rw [List.intercalate_cons_cons]
      simpa using ⟨hcs, hsep, ih hrest⟩

theorem isLine_of_isWordChar {c : Char} (h : Text.isWordChar c = true) :
    c ≠ '\n' ∧ c ≠ '\r' ∧ c ≠ '\x00' := by
  refine ⟨?_, ?_, ?_⟩ <;> rintro rfl <;> cases h

theorem isLine_of_isName (h : IsName cs) : IsLine cs := by
  obtain ⟨c, cs, rfl, hstart, hall⟩ := h.isWord
  refine isLine_cons.mpr ⟨?_, fun c hc => isLine_of_isWordChar (hall c hc)⟩
  refine ⟨?_, ?_, ?_⟩ <;> rintro rfl <;> cases hstart

theorem isLine_toDigits (n : Nat) : IsLine (Nat.toDigits 10 n) := by
  intro c hc
  have hdigit := Text.isDigit_of_mem_toDigits hc
  refine ⟨?_, ?_, ?_⟩ <;> rintro rfl <;> cases hdigit

end

/-! ## Types -/

theorem isLine_renderVariadic {t : SignatureType} (h : IsLine t.render.toList) :
    IsLine t.renderVariadic.toList := by
  cases t with
  | slice elem =>
    have helem : IsLine elem.render.toList := by simpa [SignatureType.render] using h
    simpa [SignatureType.renderVariadic] using helem
  | _ => simpa [SignatureType.renderVariadic] using h

theorem isLine_resultText {results : List String} (h : ∀ s ∈ results, IsLine s.toList) :
    IsLine (SignatureType.resultText results).toList := by
  match results with
  | [] => exact isLine_nil
  | [single] => simpa [SignatureType.resultText] using h single List.mem_cons_self
  | first :: second :: rest =>
    have hmany : IsLine ([',', ' '].intercalate ((first :: second :: rest).map String.toList)) :=
      .intercalate (by simp) (List.forall_mem_map.mpr h)
    simpa [SignatureType.resultText, String.toList_intercalate] using hmany

theorem isLine_render {t : SignatureType} (h : t.Legible) : IsLine t.render.toList := by
  induction h with
  | slice _ ih | pointer _ ih => simpa [SignatureType.render] using ih
  | @array length elem _ ih =>
    have htext : SignatureType.render (.array length elem) =
      "[" ++ toString length ++ "]" ++ elem.render := rfl
    simpa [htext] using ⟨isLine_toDigits length, ih⟩
  | map _ _ ihkey ihvalue => simpa [SignatureType.render] using ⟨ihkey, ihvalue⟩
  | @func params results variadic _ _ ihparams ihresults =>
    have hparams : IsLine ([',', ' '].intercalate
        ((SignatureType.renderParams variadic params).map String.toList)) :=
      .intercalate (by simp) (List.forall_mem_map.mpr (SignatureType.forall_mem_renderParams
        (fun t ht => ⟨ihparams t ht, isLine_renderVariadic (ihparams t ht)⟩) variadic))
    have hresults : IsLine (SignatureType.resultText (SignatureType.renderAll results)).toList := by
      rw [SignatureType.renderAll_eq]
      exact isLine_resultText (List.forall_mem_map.mpr ihresults)
    simpa [SignatureType.render, String.toList_intercalate] using ⟨hparams, hresults⟩
  | unqualified hname => simpa [SignatureType.render] using isLine_of_isName hname
  | qualified hqualifier hname =>
    simpa [SignatureType.render, hqualifier.isEmpty_eq_false] using
      ⟨isLine_of_isName hqualifier, isLine_of_isName hname⟩

/-! ## Comments -/

theorem splitLines_of_isLine {cs : List Char} (h : IsLine cs) (hne : cs ≠ []) :
    Text.splitLines cs = [cs] := by
  induction cs with
  | nil => exact absurd rfl hne
  | cons c cs ih =>
    obtain ⟨⟨hfeed, hreturn, -⟩, hcs⟩ := isLine_cons.mp h
    rw [Text.splitLines.eq_def]
    split
    · next heq => cases heq
    · next heq => exact absurd (List.cons.inj heq).1 hfeed
    · next heq => exact absurd (List.cons.inj heq).1 hreturn
    · next heq =>
      obtain ⟨rfl, rfl⟩ := List.cons.inj heq
      cases cs with
      | nil => rfl
      | cons c' cs => rw [ih hcs (List.cons_ne_nil c' cs)]

theorem lines_of_isLine {line : String} (h : IsLine line.toList) (hne : line ≠ "") :
    Text.lines line = [line] := by
  rw [Text.lines, splitLines_of_isLine h (by simpa using hne), List.map_singleton,
    String.ofList_toList]

theorem toList_renderDoc {doc : String} (h : IsLine doc.toList) (hne : doc ≠ "") :
    (renderDoc (some doc)).toList = '/' :: '/' :: ' ' :: (doc.toList ++ ['\n']) := by
  simp [renderDoc, lines_of_isLine h hne, String.join]

end Interposer.Wrapper
