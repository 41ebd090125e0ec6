import Interposer.Text.Blank
import Mathlib.Data.List.TakeWhile

/-! What trimming leaves of a text: all of it but for characters at its ends (`trimBy_eq`). -/

namespace Interposer.Text

variable {p : Char → Bool} {lead w rest trail : List Char}

theorem trimEndBy_of_all (h : ∀ c ∈ trail, p c = true) : trimEndBy p trail = [] := by
  rw [trimEndBy, List.dropWhile_eq_nil_iff.mpr, List.reverse_nil]
  simpa using h

/-- Trimming goes no further than to a character that stays. -/
theorem trimEndBy_append (hne : w ≠ []) (hlast : p (w.getLast hne) = false) (rest : List Char) :
    trimEndBy p (w ++ rest) = w ++ trimEndBy p rest := by
  have hw : w.reverse.dropWhile p = w.reverse := by
    rw [← List.cons_head_tail (List.reverse_ne_nil_iff.mpr hne), List.dropWhile_cons_of_neg]
    simpa [List.head_reverse] using hlast
  rw [trimEndBy, trimEndBy, List.reverse_append, List.dropWhile_append]
  split
  · next hempty =>
    rw [hw, List.isEmpty_iff.mp hempty]
    simp
  · simp

theorem trimBy_append {c : Char} (hlead : ∀ c ∈ lead, p c = true) (hc : p c = false)
    (rest : List Char) : trimBy p (lead ++ c :: rest) = trimEndBy p (c :: rest) := by
  rw [trimBy, List.dropWhile_append_of_pos hlead, List.dropWhile_cons_of_neg (by simp [hc])]
  rfl

theorem trimBy_eq (hlead : ∀ c ∈ lead, p c = true) (htrail : ∀ c ∈ trail, p c = true)
    (hhead : ∀ c ∈ w.head?, p c = false) (hlast : ∀ c ∈ w.getLast?, p c = false) :
    trimBy p (lead ++ (w ++ trail)) = w := by
  cases w with
  | nil =>
    rw [trimBy, List.dropWhile_append_of_pos hlead, List.nil_append,
      List.dropWhile_eq_nil_iff.mpr htrail]
    rfl
  | cons c w =>
    have hne : c :: w ≠ [] := List.cons_ne_nil c w
    have hend := hlast _ (List.getLast_mem_getLast? hne)
    rw [List.cons_append, trimBy_append hlead (hhead c rfl), ← List.cons_append,
      trimEndBy_append hne hend, trimEndBy_of_all htrail, List.append_nil]

theorem trimBy_self (hhead : ∀ c ∈ w.head?, p c = false) (hlast : ∀ c ∈ w.getLast?, p c = false) :
    trimBy p w = w := by
  have h : trimBy p ([] ++ (w ++ [])) = w := trimBy_eq nofun nofun hhead hlast
  rwa [List.nil_append, List.append_nil] at h

theorem trimBy_concat {c : Char} (hc : p c = true) (cs : List Char) :
    trimBy p (cs ++ [c]) = trimBy p cs := by
  rw [trimBy, trimBy, List.dropWhile_append]
  split
  · next hempty => simp [List.isEmpty_iff.mp hempty, hc]
  · rw [List.reverse_append, List.reverse_singleton, List.singleton_append,
      List.dropWhile_cons_of_pos hc]

theorem trimBy_prefix (p : Char → Bool) (cs : List Char) : trimBy p cs <+: cs.dropWhile p := by
  rw [trimBy, ← List.reverse_suffix, List.reverse_reverse]
  exact List.dropWhile_suffix p

end Interposer.Text
