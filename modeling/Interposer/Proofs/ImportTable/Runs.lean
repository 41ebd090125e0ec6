import Interposer.Proofs.ImportTable.Entries
import Mathlib.Data.Finset.Card

/-! Import tables over whole runs. A run enters paths one after another, and each call answers an
alias. Every call leaves its answer in the table (`mem_addAll_of_mem_calls`), and the table only
grows, so the final table explains all answers of the run. -/

namespace Interposer.ImportTable

variable {table table' : ImportTable} {path name : String}

@[simp] theorem addAll_nil (table : ImportTable) : table.addAll [] = table := rfl

@[simp] theorem addAll_cons (table : ImportTable) (path : String) (paths : List String) :
    table.addAll (path :: paths) = (table.add path).2.addAll paths := rfl

theorem addAll_append (table : ImportTable) (paths paths' : List String) :
    table.addAll (paths ++ paths') = (table.addAll paths).addAll paths' :=
  List.foldl_append ..

theorem le_addAll (table : ImportTable) (paths : List String) : table ≤ table.addAll paths := by
  induction paths generalizing table with
  | nil => exact le_rfl
  | cons path paths ih => exact (le_add table path).trans (ih _)

theorem WellFormed.addAll (H : table.WellFormed) (paths : List String) :
    (table.addAll paths).WellFormed := by
  induction paths generalizing table with
  | nil => exact H
  | cons path paths ih => exact ih (H.add path)

theorem mem_paths_iff : path ∈ table.paths ↔ ∃ name, ⟨name, path⟩ ∈ table.entries := by
  simp only [paths, List.mem_map]
  constructor
  · rintro ⟨⟨name, _⟩, hmem, rfl⟩; exact ⟨name, hmem⟩
  · rintro ⟨name, hmem⟩; exact ⟨_, hmem, rfl⟩

theorem mem_paths_add (table : ImportTable) {other : String} :
    other ∈ (table.add path).2.paths ↔ other ∈ table.paths ∨ other = path ∧ other ≠ "" := by
  by_cases hpath : path = ""
  · subst hpath
    exact (or_iff_left fun h => h.2 h.1).symm
  rcases table.add_cases hpath with ⟨hmem, hadd⟩ | ⟨-, hadd⟩ <;> rw [hadd]
  · refine (or_iff_left_of_imp fun h => ?_).symm
    rw [h.1]
    exact mem_paths_iff.mpr ⟨_, hmem⟩
  · simp only [paths, List.map_append, List.mem_append, List.map_singleton, List.mem_singleton]
    exact or_congr_right ⟨fun h => ⟨h, h ▸ hpath⟩, And.left⟩

/-- Exactly the paths of the run that are not empty get into the table. -/
theorem mem_paths_addAll (table : ImportTable) (run : List String) :
    path ∈ (table.addAll run).paths ↔ path ∈ table.paths ∨ path ∈ run ∧ path ≠ "" := by
  induction run generalizing table with
  | nil => simp
  | cons first run ih =>
    rw [addAll_cons, ih, mem_paths_add, List.mem_cons, or_assoc, ← or_and_right]

/-! ## Calls and their answers -/

/-- The calls of a run, each path with the alias that was answered. -/
def calls (table : ImportTable) : List String → List (String × String)
  | [] => []
  | path :: run => (path, (table.add path).1) :: (table.add path).2.calls run

theorem mem_addAll_of_mem_calls {run : List String} (hcall : (path, name) ∈ table.calls run)
    (hpath : path ≠ "") : ⟨name, path⟩ ∈ (table.addAll run).entries := by
  induction run generalizing table with
  | nil => exact (List.not_mem_nil hcall).elim
  | cons first run ih =>
    rcases List.mem_cons.mp hcall with heq | hcall
    · cases heq
      exact mem_of_le (le_addAll _ run) (mem_add table hpath)
    · exact ih hcall

/-! ## The order of a file -/

/-- The order in which entries are listed. -/
def listedBefore (i j : Import) : Bool :=
  i.path < j.path || (i.path == j.path && i.name ≤ j.name)

theorem listedBefore_iff {i j : Import} :
    listedBefore i j = true ↔ i.path < j.path ∨ i.path = j.path ∧ i.name ≤ j.name := by
  simp [listedBefore]

theorem listedBefore_trans (i j k : Import) (hij : listedBefore i j = true)
    (hjk : listedBefore j k = true) : listedBefore i k = true := by
  rw [listedBefore_iff] at *
  rcases hij with hij | ⟨hij, hij'⟩ <;> rcases hjk with hjk | ⟨hjk, hjk'⟩
  · exact .inl (lt_trans hij hjk)
  · exact .inl (hjk ▸ hij)
  · exact .inl (hij ▸ hjk)
  · exact .inr ⟨hij.trans hjk, le_trans hij' hjk'⟩

theorem listedBefore_total (i j : Import) : (listedBefore i j || listedBefore j i) = true := by
  rw [Bool.or_eq_true, listedBefore_iff, listedBefore_iff]
  rcases lt_trichotomy i.path j.path with hlt | heq | hlt
  · exact .inl (.inl hlt)
  · exact (le_total i.name j.name).imp (fun h => .inr ⟨heq, h⟩) (fun h => .inr ⟨heq.symm, h⟩)
  · exact .inr (.inl hlt)

theorem sorted_perm (table : ImportTable) : table.sorted.Perm table.entries :=
  List.mergeSort_perm ..

theorem WellFormed.sorted_strict (H : table.WellFormed) :
    table.sorted.Pairwise (·.path < ·.path) := by
  have hsorted : table.sorted.Pairwise (fun i j => listedBefore i j = true) :=
    List.pairwise_mergeSort listedBefore_trans listedBefore_total table.entries
  have hnodup : table.sorted.Pairwise (fun i j => i.path ≠ j.path) :=
    List.pairwise_map.mp ((table.sorted_perm.map Import.path).nodup_iff.mpr H.paths_nodup)
  refine (hsorted.and hnodup).imp fun {i j} h => ?_
  rcases listedBefore_iff.mp h.1 with hlt | ⟨heq, -⟩
  · exact hlt
  · exact absurd heq h.2

/-! ## Whole runs -/

/-- What holds at every moment of a run on a new table: `before` was entered by then, and `after`
is still to come. -/
structure RunLaws (before after : List String) : Prop where
  /-- A further call ends, after at most `size` numbered names were tried: it answers the first
  candidate that stands for no other path. -/
  ends : ∀ path, path ≠ "" → ∃ tries ≤ (empty.addAll before).size,
    ((empty.addAll before).add path).1 = candidate path tries ∧
      (∀ other, (empty.addAll before).pathOf? (candidate path tries) = some other →
        other = path) ∧
      ∀ earlier < tries, ∃ other, other ≠ path ∧
        (empty.addAll before).pathOf? (candidate path earlier) = some other
  /-- The empty path is not entered. -/
  noop : (empty.addAll before).add "" = ("", empty.addAll before)
  /-- Any two calls of the run answer the same alias for the same path and different aliases for
  different ones. -/
  unique : ∀ call ∈ empty.calls (before ++ after), ∀ call' ∈ empty.calls (before ++ after),
    call.1 ≠ "" → call'.1 ≠ "" → (call.2 = call'.2 ↔ call.1 = call'.1)
  /-- What was answered is what is found. -/
  found : ∀ call ∈ empty.calls before, call.1 ≠ "" →
    (empty.addAll before).aliasOf? call.1 = some call.2 ∧
      (empty.addAll before).pathOf? call.2 = some call.1
  /-- A path that was entered is answered from the table. -/
  again : ∀ call ∈ empty.calls before, call.1 ≠ "" →
    (empty.addAll before).add call.1 = (call.2, empty.addAll before)
  /-- No later call changes or removes an entry. -/
  kept : ∀ name path, (empty.addAll before).pathOf? name = some path →
    (empty.addAll (before ++ after)).pathOf? name = some path
  size : (empty.addAll before).size = (before.toFinset.erase "").card
  /-- The listing has each path that is not empty exactly once, in strictly increasing order. -/
  listed : ∀ path, path ∈ (empty.addAll before).sorted.map (·.path) ↔ path ∈ before ∧ path ≠ ""
  increasing : ((empty.addAll before).sorted.map (·.path)).Pairwise (· < ·)
  aliases : ∀ i ∈ (empty.addAll before).sorted,
    (empty.addAll before).aliasOf? i.path = some i.name

theorem size_addAll (run : List String) :
    (empty.addAll run).size = (run.toFinset.erase "").card := by
  have hnodup := (WellFormed.empty.addAll run).paths_nodup
  have hset : (empty.addAll run).paths.toFinset = run.toFinset.erase "" := by
    ext path
    simp only [List.mem_toFinset, Finset.mem_erase, mem_paths_addAll]
    exact ⟨fun h => h.elim (fun h => (List.not_mem_nil h).elim) And.symm, fun h => .inr h.symm⟩
  rw [← hset, List.toFinset_card_of_nodup hnodup]
  exact (List.length_map ..).symm

/-- The answer is the first candidate that stands for no other path. The search for it gives up
after `size` numbers, but never has to. -/
theorem add_eq_candidate (table : ImportTable) (hpath : path ≠ "") :
    ∃ tries ≤ table.size, (table.add path).1 = candidate path tries ∧
      (∀ other, table.pathOf? (candidate path tries) = some other → other = path) ∧
      ∀ earlier < tries, ∃ other, other ≠ path ∧
        table.pathOf? (candidate path earlier) = some other := by
  obtain ⟨n, hn, halias, hfree, hfirst⟩ := table.aliasFor_eq_candidate path
  refine ⟨n, hn, ?_, isTaken_eq_false_iff.mp hfree, fun m hm => ?_⟩
  · rcases table.add_cases hpath with ⟨-, hadd⟩ | ⟨-, hadd⟩ <;> rw [hadd] <;> exact halias
  · obtain ⟨other, hother, hne⟩ := isTaken_eq_true_iff.mp (hfirst m hm)
    exact ⟨other, hne, hother⟩

theorem run_laws (before after : List String) : RunLaws before after := by
  have H := WellFormed.empty.addAll before
  have H' := WellFormed.empty.addAll (before ++ after)
  have hle : empty.addAll before ≤ empty.addAll (before ++ after) := by
    rw [addAll_append]; exact le_addAll _ _
  have hsorted : ∀ i, i ∈ (empty.addAll before).sorted ↔ i ∈ (empty.addAll before).entries :=
    fun i => (sorted_perm _).mem_iff
  refine ⟨fun path => add_eq_candidate _, add_empty _, ?_, ?_, ?_,
    fun name path => pathOf?_of_le hle, size_addAll before, fun path => ?_,
    List.pairwise_map.mpr H.sorted_strict, fun i hi => ?_⟩
  · rintro ⟨path, name⟩ hcall ⟨path', name'⟩ hcall' hpath hpath'
    have hmem := mem_addAll_of_mem_calls hcall hpath
    have hmem' := mem_addAll_of_mem_calls hcall' hpath'
    exact ⟨fun hname => congrArg Import.path (H'.eq_of_name_eq hmem hmem' hname),
      fun heq => congrArg Import.name (H'.eq_of_path_eq hmem hmem' heq)⟩
  · rintro ⟨path, name⟩ hcall hpath
    have hmem := mem_addAll_of_mem_calls hcall hpath
    exact ⟨H.aliasOf?_eq_some_iff.mpr hmem, H.pathOf?_eq_some_iff.mpr hmem⟩
  · rintro ⟨path, name⟩ hcall hpath
    exact H.add_of_mem (mem_addAll_of_mem_calls hcall hpath)
  · have hpaths : path ∈ (empty.addAll before).sorted.map (·.path) ↔
        path ∈ (empty.addAll before).paths := ((sorted_perm _).map Import.path).mem_iff
    rw [hpaths, mem_paths_addAll]
    exact or_iff_right List.not_mem_nil
  · exact H.aliasOf?_eq_some_iff.mpr ((hsorted i).mp hi)

/-- A call with the empty path answers an alias that no look-up finds, since nothing is entered. -/
theorem not_found_empty_path :
    ¬ ∀ run, ∀ call ∈ empty.calls run, (empty.addAll run).aliasOf? call.1 = some call.2 ∧
      (empty.addAll run).pathOf? call.2 = some call.1 := by
  intro h
  have hfound := (h [""] ("", "") (List.mem_singleton_self _)).1
  exact nomatch hfound

end Interposer.ImportTable
