import Mathlib.Data.List.Perm.Subperm
import Mathlib.Data.List.Nodup
import Mathlib.Logic.Relation
import Mathlib.Logic.Relator

/-! Ways of counted steps. Where every step is determined and a way comes to an end, it never comes by
the same place twice; so it is no longer than there are places to make a step from
(`Steps.le_length`). -/

namespace Interposer

/-- A way of exactly so many steps. -/
inductive Steps {α : Type} (R : α → α → Prop) : Nat → α → α → Prop
  | zero (a : α) : Steps R 0 a a
  | succ {n : Nat} {a b c : α} : R a b → Steps R n b c → Steps R (n + 1) a c

namespace Steps

variable {α : Type} {R : α → α → Prop} {m n bound : Nat} {a b c : α}

theorem zero_iff : Steps R 0 a c ↔ a = c := by
  constructor
  · intro h
    cases h
    rfl
  · rintro rfl
    exact .zero a

theorem succ_iff : Steps R (n + 1) a c ↔ ∃ b, R a b ∧ Steps R n b c := by
  constructor
  · intro h
    cases h with
    | succ hstep hrest => exact ⟨_, hstep, hrest⟩
  · rintro ⟨b, hstep, hrest⟩
    exact .succ hstep hrest

theorem within_succ_iff : (∃ n < bound + 1, Steps R n a c) ↔
    a = c ∨ ∃ b, R a b ∧ ∃ n < bound, Steps R n b c := by
  constructor
  · rintro ⟨n, hn, h⟩
    cases h with
    | zero => exact .inl rfl
    | succ hstep hrest => exact .inr ⟨_, hstep, _, Nat.lt_of_succ_lt_succ hn, hrest⟩
  · rintro (rfl | ⟨b, hstep, n, hn, hrest⟩)
    · exact ⟨0, Nat.succ_pos bound, .zero a⟩
    · exact ⟨n + 1, Nat.succ_lt_succ hn, .succ hstep hrest⟩

theorem reflTransGen (h : Steps R n a c) : Relation.ReflTransGen R a c := by
  induction h with
  | zero => exact .refl
  | succ hstep _ ih => exact .head hstep ih

theorem exists_of_reflTransGen (h : Relation.ReflTransGen R a c) : ∃ n, Steps R n a c := by
  induction h using Relation.ReflTransGen.head_induction_on with
  | refl => exact ⟨0, .zero c⟩
  | head hstep _ ih =>
    obtain ⟨n, hrest⟩ := ih
    exact ⟨n + 1, .succ hstep hrest⟩

/-! ## Ways to an end -/

/-- A way to an end goes through all that can be reached, and the steps that were made to get there
are part of it. -/
theorem align (hunique : Relator.RightUnique R) (hend : ∀ b, ¬ R c b) (h : Steps R m a b)
    (h' : Steps R n a c) : m ≤ n ∧ Steps R (n - m) b c := by
  induction h generalizing n with
  | zero => exact ⟨Nat.zero_le n, h'⟩
  | succ hstep _ ih =>
    cases h' with
    | zero => exact (hend _ hstep).elim
    | succ hstep' hrest =>
      obtain rfl := hunique hstep hstep'
      obtain ⟨hle, hrest⟩ := ih hrest
      refine ⟨Nat.succ_le_succ hle, ?_⟩
      rwa [Nat.add_sub_add_right]

/-- A way to an end does not come back to where it has been. -/
theorem eq_zero_of_loop (hunique : Relator.RightUnique R) (hend : ∀ b, ¬ R c b)
    (hloop : Steps R m a a) (h : Steps R n a c) : m = 0 := by
  obtain ⟨hle, hrest⟩ := align hunique hend hloop h
  -- The rest after the loop is a way from the same place to the same end.
  obtain ⟨hback, -⟩ := align hunique hend h hrest
  omega

/-- A way to an end has a place for each of its steps, and they are different places. -/
theorem exists_places (hunique : Relator.RightUnique R) (hend : ∀ b, ¬ R c b)
    (h : Steps R n a c) : ∃ places : List α, places.length = n ∧ places.Nodup ∧
      ∀ place ∈ places, (∃ next, R place next) ∧ ∃ m, Steps R m a place := by
  induction h with
  | zero a => exact ⟨[], rfl, List.nodup_nil, nofun⟩
  | @succ n a b c hstep hrest ih =>
    obtain ⟨places, hlength, hnodup, hplaces⟩ := ih hend
    refine ⟨a :: places, congrArg (· + 1) hlength, ?_, ?_⟩
    · refine List.nodup_cons.mpr ⟨?_, hnodup⟩
      intro hmem
      obtain ⟨-, m, hback⟩ := hplaces a hmem
      have hzero := eq_zero_of_loop hunique hend (.succ hstep hback) (.succ hstep hrest)
      exact Nat.succ_ne_zero m hzero
    · refine List.forall_mem_cons.mpr ⟨⟨⟨b, hstep⟩, 0, .zero a⟩, ?_⟩
      intro place hplace
      obtain ⟨hnext, m, hreach⟩ := hplaces place hplace
      exact ⟨hnext, m + 1, .succ hstep hreach⟩

/-- If the places that a step can be made from have different names, a way to an end is no longer
than the list of these names. -/
theorem le_length {β : Type} (name : α → β) {names : List β} (hunique : Relator.RightUnique R)
    (hend : ∀ b, ¬ R c b) (hnames : ∀ a b, R a b → name a ∈ names)
    (hinj : ∀ a a' b b', R a b → R a' b' → name a = name a' → a = a') (h : Steps R n a c) :
    n ≤ names.length := by
  obtain ⟨places, hlength, hnodup, hplaces⟩ := exists_places hunique hend h
  have hdistinct : (places.map name).Nodup := by
    refine hnodup.map_on ?_
    intro a ha a' ha' heq
    obtain ⟨⟨b, hstep⟩, -⟩ := hplaces a ha
    obtain ⟨⟨b', hstep'⟩, -⟩ := hplaces a' ha'
    exact hinj a a' b b' hstep hstep' heq
  have hsub : places.map name ⊆ names := by
    intro s hs
    obtain ⟨place, hplace, rfl⟩ := List.mem_map.mp hs
    obtain ⟨⟨next, hstep⟩, -⟩ := hplaces place hplace
    exact hnames place next hstep
  have hle := (hdistinct.subperm hsub).length_le
  rwa [List.length_map, hlength] at hle

end Steps

end Interposer
