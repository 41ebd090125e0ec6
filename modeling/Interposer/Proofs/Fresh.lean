import Interposer.Fresh
import Mathlib.Data.List.Perm.Subperm
import Mathlib.Data.List.Nodup
import Mathlib.Data.Nat.Find

/-! A search for a free name ends at the first free candidate. Candidates that are all different
outnumber the taken names sooner or later, so the bound of the search never shows. -/

namespace Interposer

theorem firstFree_eq_of_first {taken : String → Bool} {candidate : Nat → String} {bound n : Nat}
    (hn : n ≤ bound) (hfree : taken (candidate n) = false)
    (hfirst : ∀ m < n, taken (candidate m) = true) :
    firstFree taken candidate bound = candidate n := by
  unfold firstFree
  rcases Nat.lt_or_eq_of_le hn with hlt | rfl
  · have hfind : (List.range bound).find? (fun m => !taken (candidate m)) = some n := by
      rw [List.find?_range_eq_some]
      exact ⟨by simp [hfree], List.mem_range.mpr hlt, fun m hm => by simp [hfirst m hm]⟩
    rw [hfind]; rfl
  · have hfind : (List.range n).find? (fun m => !taken (candidate m)) = none := by
      rw [List.find?_range_eq_none]
      exact fun m hm => by simp [hfirst m hm]
    rw [hfind]; rfl

theorem exists_first_free (taken : String → Bool) {candidate : Nat → String} {bound : Nat}
    (h : ∃ n ≤ bound, taken (candidate n) = false) :
    ∃ n ≤ bound, taken (candidate n) = false ∧ ∀ m < n, taken (candidate m) = true := by
  obtain ⟨k, hk, hfree⟩ := h
  have hex : ∃ n, taken (candidate n) = false := ⟨k, hfree⟩
  refine ⟨Nat.find hex, Nat.le_trans (Nat.find_min' hex hfree) hk, Nat.find_spec hex,
    fun m hm => ?_⟩
  simpa using Nat.find_min hex hm

/-- Among more candidates than there are names, one is not a name. -/
theorem exists_candidate_not_mem {candidate : Nat → String} (hinj : candidate.Injective)
    (names : List String) : ∃ n ≤ names.length, candidate n ∉ names := by
  by_contra hall
  have hsub : (List.range (names.length + 1)).map candidate ⊆ names := by
    intro name hname
    obtain ⟨n, hn, rfl⟩ := List.mem_map.mp hname
    by_contra hnot
    exact hall ⟨n, Nat.lt_succ_iff.mp (List.mem_range.mp hn), hnot⟩
  have hlength := ((List.nodup_range.map hinj).subperm hsub).length_le
  rw [List.length_map, List.length_range] at hlength
  omega

/-- A search that avoids a list, with the list's length as its bound, ends at a free name. -/
theorem firstFree_not_mem {candidate : Nat → String} (hinj : candidate.Injective)
    (names : List String) :
    ∃ n, firstFree names.contains candidate names.length = candidate n ∧ candidate n ∉ names := by
  obtain ⟨k, hk, hnot⟩ := exists_candidate_not_mem hinj names
  obtain ⟨n, hn, hfree, hfirst⟩ :=
    exists_first_free names.contains ⟨k, hk, by simpa using hnot⟩
  exact ⟨n, firstFree_eq_of_first hn hfree hfirst, by simpa using hfree⟩

theorem underscores_injective : underscores.Injective := by
  intro m n h
  have hlist := String.ofList_injective h
  simpa using congrArg List.length hlist

theorem append_underscores_injective (name : String) :
    Function.Injective fun n => name ++ underscores n := by
  intro m n h
  exact underscores_injective ((String.append_right_inj name).mp h)

theorem freshAfter_not_mem (taken : List String) (name : String) :
    freshAfter taken name ∉ taken := by
  obtain ⟨n, hn, hnot⟩ := firstFree_not_mem (append_underscores_injective name) taken
  unfold freshAfter
  rwa [hn]

theorem underscores_append_injective (name : String) :
    Function.Injective fun n => underscores n ++ name := by
  intro m n h
  exact underscores_injective ((String.append_left_inj name).mp h)

theorem freshBefore_not_mem (taken : List String) (name : String) :
    freshBefore taken name ∉ taken := by
  obtain ⟨n, hn, hnot⟩ := firstFree_not_mem (underscores_append_injective name) taken
  unfold freshBefore
  rwa [hn]

theorem freshBefore_of_not_mem {taken : List String} {name : String} (h : name ∉ taken) :
    freshBefore taken name = name := by
  have hzero : underscores 0 ++ name = name := String.empty_append
  unfold freshBefore
  rw [firstFree_eq_of_first (n := 0) (Nat.zero_le _) ?_ nofun, hzero]
  rwa [hzero, ← Bool.not_eq_true, List.contains_iff_mem]

theorem freshAfter_eq_append (taken : List String) (name : String) :
    ∃ n, freshAfter taken name = name ++ underscores n := by
  obtain ⟨n, hn, -⟩ := firstFree_not_mem (append_underscores_injective name) taken
  exact ⟨n, hn⟩

theorem freshBefore_eq_append (taken : List String) (name : String) :
    ∃ n, freshBefore taken name = underscores n ++ name := by
  obtain ⟨n, hn, -⟩ := firstFree_not_mem (underscores_append_injective name) taken
  exact ⟨n, hn⟩

end Interposer
