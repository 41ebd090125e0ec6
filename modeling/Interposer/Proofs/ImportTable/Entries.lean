import Interposer.ImportTable
import Interposer.Proofs.Fresh
import Mathlib.Data.String.Basic

/-! What entering a path does to an import table. Each path is tried under its default alias and
then under that alias with the numbers 0, 1, …; it gets the first of these names that stands for no
other path (`aliasFor_eq_candidate`). A well-formed table remembers, for each of its entries, that
all earlier candidates were taken. Names stay taken as the table grows, so the same search finds
the same alias again (`WellFormed.aliasFor_eq`). -/

namespace Interposer.ImportTable

variable {table table' : ImportTable} {path name : String}

/-- The paths that have an alias. -/
def paths (table : ImportTable) : List String := table.entries.map (·.path)

/-- The names that are tried for a path, in this order. -/
def candidate (path : String) : Nat → String
  | 0 => defaultAlias path
  | n + 1 => defaultAlias path ++ toString n

theorem toString_nat_injective : Function.Injective fun n : Nat => toString n := by
  intro m n h
  have hdigits : Nat.toDigits 10 m = Nat.toDigits 10 n := by
    simpa only [Nat.toString_eq_repr, Nat.toList_repr] using congrArg String.toList h
  simpa using congrArg (Nat.ofDigitChars 10 · 0) hdigits

theorem toString_nat_ne_empty (n : Nat) : toString n ≠ "" := by
  intro h
  have hdigits : Nat.toDigits 10 n = [] := by
    simpa only [Nat.toString_eq_repr, Nat.toList_repr, String.toList_empty] using
      congrArg String.toList h
  have hlength := Nat.length_toDigits_pos (b := 10) (n := n)
  simp [hdigits] at hlength

theorem candidate_injective (path : String) : (candidate path).Injective := by
  intro m n h
  have hne : ∀ k : Nat, defaultAlias path ≠ defaultAlias path ++ toString k := by
    intro k hk
    have hempty := hk.symm.trans String.append_empty.symm
    exact toString_nat_ne_empty k ((String.append_right_inj _).mp hempty)
  cases m with
  | zero =>
    cases n with
    | zero => rfl
    | succ n => exact (hne n h).elim
  | succ m =>
    cases n with
    | zero => exact (hne m h.symm).elim
    | succ n => rw [toString_nat_injective ((String.append_right_inj _).mp h)]

theorem candidate_ne_empty (h : defaultAlias path ≠ "") : ∀ n, candidate path n ≠ ""
  | 0 => h
  | _ + 1 => fun happend => h (String.append_eq_empty_iff.mp happend).1

/-! ## Looking up -/

theorem pathOf?_eq_none_iff : table.pathOf? name = none ↔ name ∉ table.aliases := by
  simp [pathOf?, aliases]

theorem find?_name_eq {entries : List Import} (hnodup : (entries.map Import.name).Nodup)
    (hmem : ⟨name, path⟩ ∈ entries) : entries.find? (·.name == name) = some ⟨name, path⟩ := by
  cases hfound : entries.find? (·.name == name) with
  | none =>
    rw [List.find?_eq_none] at hfound
    exact (hfound _ hmem (by simp)).elim
  | some other =>
    have hname : other.name = name := by simpa using List.find?_some hfound
    exact congrArg some
      (List.inj_on_of_nodup_map hnodup (List.mem_of_find?_eq_some hfound) hmem hname)

theorem mem_of_pathOf? (h : table.pathOf? name = some path) : ⟨name, path⟩ ∈ table.entries := by
  obtain ⟨⟨found, path'⟩, hfind, rfl⟩ := Option.map_eq_some_iff.mp h
  have hname : found = name := by simpa using List.find?_some hfind
  exact hname ▸ List.mem_of_find?_eq_some hfind

theorem mem_of_aliasOf? (h : table.aliasOf? path = some name) : ⟨name, path⟩ ∈ table.entries := by
  obtain ⟨⟨name', found⟩, hfind, rfl⟩ := Option.map_eq_some_iff.mp h
  have hpath : found = path := by simpa using List.find?_some hfind
  exact hpath ▸ List.mem_of_find?_eq_some hfind

theorem isTaken_eq_true_iff :
    table.isTaken path name = true ↔ ∃ other, table.pathOf? name = some other ∧ other ≠ path := by
  unfold isTaken
  split <;> simp_all

theorem isTaken_eq_false_iff :
    table.isTaken path name = false ↔ ∀ other, table.pathOf? name = some other → other = path := by
  unfold isTaken
  split <;> simp_all

/-! ## Growth -/

/-- Tables grow at their end. -/
instance : Preorder ImportTable where
  le table table' := table.entries <+: table'.entries
  le_refl _ := List.prefix_rfl
  le_trans _ _ _ := List.IsPrefix.trans

theorem mem_of_le (h : table ≤ table') {i : Import} (hi : i ∈ table.entries) :
    i ∈ table'.entries := List.IsPrefix.mem hi h

theorem mem_paths_of_le (h : table ≤ table') (hpath : path ∈ table.paths) :
    path ∈ table'.paths := List.map_subset _ (List.IsPrefix.subset h) hpath

theorem pathOf?_of_le (h : table ≤ table') (hpath : table.pathOf? name = some path) :
    table'.pathOf? name = some path := by
  obtain ⟨rest, hrest⟩ := h
  obtain ⟨i, hfind, rfl⟩ := Option.map_eq_some_iff.mp hpath
  simp [pathOf?, ← hrest, hfind]

theorem isTaken_of_le (h : table ≤ table') (htaken : table.isTaken path name = true) :
    table'.isTaken path name = true := by
  obtain ⟨other, hother, hne⟩ := isTaken_eq_true_iff.mp htaken
  exact isTaken_eq_true_iff.mpr ⟨other, pathOf?_of_le h hother, hne⟩

/-! ## The search for an alias -/

/-- The search for an alias ends: at most `size` names are tried in vain, since each of these is
an alias already. -/
theorem aliasFor_eq_candidate (table : ImportTable) (path : String) :
    ∃ n ≤ table.size, table.aliasFor path = candidate path n ∧
      table.isTaken path (candidate path n) = false ∧
      ∀ m < n, table.isTaken path (candidate path m) = true := by
  obtain ⟨k, hk, hnot⟩ := exists_candidate_not_mem (candidate_injective path) table.aliases
  have hfree : table.isTaken path (candidate path k) = false := by
    simp [isTaken, pathOf?_eq_none_iff.mpr hnot]
  have hsize : table.aliases.length = table.size := List.length_map ..
  obtain ⟨n, hn, hfree, hfirst⟩ :=
    exists_first_free (table.isTaken path) ⟨k, hsize ▸ hk, hfree⟩
  refine ⟨n, hn, ?_, hfree, hfirst⟩
  unfold aliasFor
  cases n with
  | zero => exact if_neg (by simpa [candidate] using hfree)
  | succ n =>
    refine (if_pos (hfirst 0 (Nat.succ_pos n))).trans ?_
    exact firstFree_eq_of_first (by omega) hfree fun m hm => hfirst (m + 1) (by omega)

theorem isTaken_aliasFor (table : ImportTable) (path : String) :
    table.isTaken path (table.aliasFor path) = false := by
  obtain ⟨n, -, halias, hfree, -⟩ := aliasFor_eq_candidate table path
  rwa [halias]

/-- A free candidate after nothing but taken ones is what the search finds. -/
theorem aliasFor_eq_of_first {n : Nat} (hfree : table.isTaken path (candidate path n) = false)
    (hfirst : ∀ m < n, table.isTaken path (candidate path m) = true) :
    table.aliasFor path = candidate path n := by
  obtain ⟨k, -, halias, hfree', hfirst'⟩ := aliasFor_eq_candidate table path
  rcases Nat.lt_trichotomy k n with hlt | rfl | hlt
  · rw [hfirst k hlt] at hfree'; contradiction
  · exact halias
  · rw [hfirst' n hlt] at hfree; contradiction

/-! ## Entering a path -/

@[simp] theorem add_empty (table : ImportTable) : table.add "" = ("", table) := rfl

/-- Entering a path either finds its alias in the table or appends an entry. -/
theorem add_cases (table : ImportTable) (hpath : path ≠ "") :
    (⟨table.aliasFor path, path⟩ ∈ table.entries ∧
        table.add path = (table.aliasFor path, table)) ∨
      (table.pathOf? (table.aliasFor path) = none ∧
        table.add path =
          (table.aliasFor path, ⟨table.entries ++ [⟨table.aliasFor path, path⟩]⟩)) := by
  have hempty : path.isEmpty = false := by simpa using hpath
  cases hfound : table.pathOf? (table.aliasFor path) with
  | none => exact .inr ⟨rfl, by simp [add, hempty, hfound]⟩
  | some other =>
    have hother := isTaken_eq_false_iff.mp (isTaken_aliasFor table path) other hfound
    rw [hother] at hfound
    exact .inl ⟨mem_of_pathOf? hfound, by simp [add, hempty, hfound]⟩

theorem le_add (table : ImportTable) (path : String) : table ≤ (table.add path).2 := by
  by_cases hpath : path = ""
  · subst hpath; exact le_rfl
  · rcases table.add_cases hpath with ⟨-, hadd⟩ | ⟨-, hadd⟩
    · rw [hadd]
    · rw [hadd]; exact List.prefix_append ..

theorem mem_add (table : ImportTable) (hpath : path ≠ "") :
    ⟨(table.add path).1, path⟩ ∈ (table.add path).2.entries := by
  rcases table.add_cases hpath with ⟨hmem, hadd⟩ | ⟨-, hadd⟩ <;> rw [hadd]
  · exact hmem
  · exact List.mem_append_right _ (List.mem_singleton_self _)

/-- What every table that grew from the empty one satisfies. Aliases are different from each
other, and each entry still has all the candidates that were taken when it was made. -/
structure WellFormed (table : ImportTable) : Prop where
  nodup : table.aliases.Nodup
  nonempty : ∀ i ∈ table.entries, i.path ≠ ""
  first : ∀ i ∈ table.entries, ∃ n, i.name = candidate i.path n ∧
    ∀ m < n, table.isTaken i.path (candidate i.path m) = true

theorem WellFormed.empty : empty.WellFormed :=
  ⟨List.nodup_nil, fun _ h => (List.not_mem_nil h).elim, fun _ h => (List.not_mem_nil h).elim⟩

namespace WellFormed

theorem eq_of_name_eq (H : table.WellFormed) {i j : Import} (hi : i ∈ table.entries)
    (hj : j ∈ table.entries) (hname : i.name = j.name) : i = j :=
  List.inj_on_of_nodup_map H.nodup hi hj hname

theorem pathOf?_eq_some_iff (H : table.WellFormed) :
    table.pathOf? name = some path ↔ ⟨name, path⟩ ∈ table.entries := by
  refine ⟨mem_of_pathOf?, fun hmem => ?_⟩
  rw [pathOf?, find?_name_eq H.nodup hmem, Option.map_some]

/-- The search for an alias of an entered path ends at the alias that it has. -/
theorem aliasFor_eq (H : table.WellFormed) (hmem : ⟨name, path⟩ ∈ table.entries) :
    table.aliasFor path = name := by
  obtain ⟨n, hname, hfirst⟩ := H.first _ hmem
  simp only at hname hfirst
  subst hname
  refine aliasFor_eq_of_first (isTaken_eq_false_iff.mpr fun other hother => ?_) hfirst
  rw [H.pathOf?_eq_some_iff.mpr hmem] at hother
  exact (Option.some.inj hother).symm

theorem name_ne_empty (H : table.WellFormed) {i : Import} (hi : i ∈ table.entries)
    (hdefault : defaultAlias i.path ≠ "") : i.name ≠ "" := by
  obtain ⟨n, hname, -⟩ := H.first i hi
  exact hname ▸ candidate_ne_empty hdefault n

theorem eq_of_path_eq (H : table.WellFormed) {i j : Import} (hi : i ∈ table.entries)
    (hj : j ∈ table.entries) (hpath : i.path = j.path) : i = j := by
  refine H.eq_of_name_eq hi hj ?_
  rw [← H.aliasFor_eq hi, ← H.aliasFor_eq hj, hpath]

theorem paths_nodup (H : table.WellFormed) : table.paths.Nodup :=
  (List.Nodup.of_map _ H.nodup).map_on fun _ hi _ hj hpath => H.eq_of_path_eq hi hj hpath

theorem aliasOf?_eq_some_iff (H : table.WellFormed) :
    table.aliasOf? path = some name ↔ ⟨name, path⟩ ∈ table.entries := by
  refine ⟨mem_of_aliasOf?, fun hmem => ?_⟩
  cases hfound : table.aliasOf? path with
  | none =>
    simp only [aliasOf?, Option.map_eq_none_iff, List.find?_eq_none] at hfound
    exact (hfound _ hmem (by simp)).elim
  | some other =>
    have heq := H.eq_of_path_eq (mem_of_aliasOf? hfound) hmem rfl
    exact congrArg some (congrArg Import.name heq)

/-- Entering a path again changes nothing. -/
theorem add_of_mem (H : table.WellFormed) (hmem : ⟨name, path⟩ ∈ table.entries) :
    table.add path = (name, table) := by
  have halias := H.aliasFor_eq hmem
  rcases table.add_cases (H.nonempty _ hmem) with ⟨-, hadd⟩ | ⟨hnone, -⟩
  · rw [hadd, halias]
  · rw [halias, H.pathOf?_eq_some_iff.mpr hmem] at hnone
    contradiction

theorem add (H : table.WellFormed) (path : String) : (table.add path).2.WellFormed := by
  by_cases hpath : path = ""
  · subst hpath; exact H
  rcases table.add_cases hpath with ⟨-, hadd⟩ | ⟨hnone, hadd⟩
  · rw [hadd]; exact H
  have hle := table.le_add path
  rw [hadd] at hle ⊢
  refine ⟨?_, fun i hi => ?_, fun i hi => ?_⟩
  · have hnot := pathOf?_eq_none_iff.mp hnone
    rw [aliases, List.map_append, List.nodup_append]
    refine ⟨H.nodup, List.nodup_singleton _, fun name hname name' hname' heq => hnot ?_⟩
    have halias : name = table.aliasFor path := heq.trans (List.mem_singleton.mp hname')
    exact halias ▸ hname
  · rcases List.mem_append.mp hi with hi | hi
    · exact H.nonempty i hi
    · cases List.mem_singleton.mp hi; exact hpath
  · rcases List.mem_append.mp hi with hi | hi
    · obtain ⟨n, hname, hfirst⟩ := H.first i hi
      exact ⟨n, hname, fun m hm => isTaken_of_le hle (hfirst m hm)⟩
    · cases List.mem_singleton.mp hi
      obtain ⟨n, -, hname, -, hfirst⟩ := table.aliasFor_eq_candidate path
      exact ⟨n, hname, fun m hm => isTaken_of_le hle (hfirst m hm)⟩

end WellFormed

end Interposer.ImportTable
