import Mathlib.Data.List.DropRight
import Interposer.Path

/-! The parts of a path: its anchor and what comes after it, its parent, and the name at its end. -/

namespace Interposer.Path

variable {path parent : Path} {name : String}

/-- What stands at the end of a list, in front of the last elements of a kind. -/
theorem dropEnd_cases {α : Type} (p : α → Bool) (xs : List α) :
    (∀ x ∈ xs, p x = true) ∧ (xs.reverse.dropWhile p).reverse = [] ∨
      ∃ before last rest, xs = before ++ last :: rest ∧ p last = false ∧
        (∀ x ∈ rest, p x = true) ∧ (xs.reverse.dropWhile p).reverse = before ++ [last] := by
  have heq : xs.rdropWhile p ++ xs.rtakeWhile p = xs := List.rdropWhile_append_rtakeWhile
  have hrest : ∀ x ∈ xs.rtakeWhile p, p x = true := fun _ => List.mem_rtakeWhile_imp
  rcases List.eq_nil_or_concat (xs.rdropWhile p) with hnil | ⟨before, last, hlast⟩
  · left
    rw [hnil, List.nil_append] at heq
    exact ⟨heq ▸ hrest, hnil⟩
  · right
    have hne := List.rdropWhile_last_not p xs (by simp [hlast])
    simp only [hlast, List.concat_eq_append, List.getLast_append_singleton] at hne
    rw [hlast, List.concat_eq_append, List.append_assoc] at heq
    exact ⟨before, last, _, heq.symm, by simpa using hne, hrest,
      hlast.trans (List.concat_eq_append ..)⟩

/-- A name that stands neither for a directory itself nor for the one above it. -/
def IsProper (name : String) : Prop := Path.isIdle name = false ∧ name ≠ ".."

theorem anchorAndBody_append (path : Path) :
    path.anchorAndBody.1 ++ path.anchorAndBody.2 = path.segments := by
  rw [anchorAndBody]
  split
  · next heq => exact heq.symm
  · next heq => exact heq.symm
  · rfl

theorem isPrefix_dropIdleEnd (segments : List String) : dropIdleEnd segments <+: segments :=
  List.rdropWhile_prefix _ _

/-- The parent of a path is a part of it, unless it is an anchor written in full. -/
theorem segments_of_parent? (h : path.parent? = some parent) :
    parent.segments <+: path.segments ∨ ∀ s ∈ parent.segments, s = "" := by
  have hparts := anchorAndBody_append path
  rw [parent?] at h
  generalize path.anchorAndBody = parts at h hparts
  obtain ⟨anchor, body⟩ := parts
  simp only at h hparts
  split at h
  · split at h <;> cases h
    exact .inr (by simp)
  · cases h
    have hbegin : dropIdleEnd (dropIdleEnd body).dropLast <+: body :=
      (isPrefix_dropIdleEnd _).trans (( List.dropLast_prefix _).trans (isPrefix_dropIdleEnd _))
    rw [ofAnchorAndBody.eq_def]
    split
    · exact .inr (by simp)
    · exact .inr (by simp)
    · exact .inl (hparts ▸ (List.prefix_append_right_inj _).mpr hbegin)

theorem dropIdleEnd_of_getLast? {segments : List String} (h : segments.getLast? = some name)
    (hname : IsProper name) : dropIdleEnd segments = segments := by
  obtain ⟨before, rfl⟩ := List.getLast?_eq_some_iff.mp h
  exact List.rdropWhile_concat_neg _ _ _ (by simp [hname.1])

/-- A proper name at the end of a path is the name of the file. -/
theorem fileName?_of_getLast? (h : path.segments.getLast? = some name) (hname : IsProper name) :
    path.fileName? = some name := by
  have hbody : path.anchorAndBody.2.getLast? = some name := by
    rw [anchorAndBody]
    split
    · next heq => rwa [heq, List.getLast?_cons_cons] at h
    · next rest heq =>
      cases rest with
      | nil =>
        rw [heq] at h
        cases h
        exact absurd hname.1 (by decide)
      | cons => rwa [heq, List.getLast?_cons_cons] at h
    · exact h
  rw [fileName?, dropIdleEnd_of_getLast? hbody hname, hbody]
  simp [hname.2]

end Interposer.Path
