import Interposer.Wrapper
import Mathlib.Logic.Basic

/-! What hooks contribute to the methods of a wrapper. A hook is asked about a method at every
point that the method has, and what it answers gets into the method, from nowhere else. -/

namespace Interposer.Wrapper

variable {m : Method} {table : ImportTable} {hooks : List Hook} {hook : Hook} {code : String}

theorem bind_eq_ok {α β ε : Type} {x : Except ε α} {f : α → Except ε β} {b : β} :
    (x >>= f) = .ok b ↔ ∃ a, x = .ok a ∧ f a = .ok b := by
  cases x <;> simp [bind, Except.bind]

/-- The points at which hooks are asked about a method: there is no failure to report where no
error is returned. -/
def Consulted (m : Method) (point : HookPoint) : Prop := point = .onError → m.errorResult?.isSome

/-- The hook has a fragment for the method. -/
def Contributes (hook : Hook) (m : Method) (table : ImportTable) : Prop :=
  ∃ point code, Consulted m point ∧ hook.fragment point m table = .ok (some code)

theorem mem_contributions {point : HookPoint} {cs : List Contribution}
    (h : contributions point m table hooks = .ok cs) :
    ⟨hook, code⟩ ∈ cs ↔ hook ∈ hooks ∧ hook.fragment point m table = .ok (some code) := by
  induction hooks generalizing cs with
  | nil => cases h; simp
  | cons first hooks ih =>
    obtain ⟨fragment, hfragment, h⟩ := bind_eq_ok.mp h
    obtain ⟨rest, hrest, h⟩ := bind_eq_ok.mp h
    have hmem := ih hrest
    cases fragment with
    | none =>
      cases h
      rw [hmem, List.mem_cons]
      refine ⟨fun h => ⟨.inr h.1, h.2⟩, fun h => ⟨h.1.resolve_left fun heq => ?_, h.2⟩⟩
      rw [heq, hfragment] at h
      exact nomatch h.2
    | some text =>
      cases h
      rw [List.mem_cons, hmem, List.mem_cons, Contribution.mk.injEq]
      constructor
      · rintro (⟨rfl, rfl⟩ | h)
        · exact ⟨.inl rfl, hfragment⟩
        · exact ⟨.inr h.1, h.2⟩
      · rintro ⟨rfl | hmem', hcode⟩
        · rw [hfragment] at hcode
          cases hcode
          exact .inl ⟨rfl, rfl⟩
        · exact .inr ⟨hmem', hcode⟩

/-- The contributions to a point of a method. -/
def Fragments.at (f : Fragments) : HookPoint → List Contribution
  | .preCall => f.preCall
  | .postCall => f.postCall
  | .onSuccess => f.onSuccess
  | .onError => f.onError

/-- Fragments are collected point by point. -/
theorem fragments_eq_ok {f : Fragments} (h : fragments m table hooks = .ok f) (point : HookPoint) :
    (Consulted m point ∧ contributions point m table hooks = .ok (f.at point)) ∨
      (¬ Consulted m point ∧ f.at point = []) := by
  obtain ⟨preCall, hpre, h⟩ := bind_eq_ok.mp h
  obtain ⟨postCall, hpost, h⟩ := bind_eq_ok.mp h
  obtain ⟨onSuccess, hsuccess, h⟩ := bind_eq_ok.mp h
  have herror : ∃ onError, f = ⟨preCall, postCall, onSuccess, onError⟩ ∧
      ((m.errorResult?.isSome ∧ contributions .onError m table hooks = .ok onError) ∨
        (¬ m.errorResult?.isSome ∧ onError = [])) := by
    split at h
    · next hsome =>
      obtain ⟨onError, herror, h⟩ := bind_eq_ok.mp h
      cases h
      exact ⟨onError, rfl, .inl ⟨hsome, herror⟩⟩
    · next hnone => cases h; exact ⟨[], rfl, .inr ⟨hnone, rfl⟩⟩
  obtain ⟨onError, rfl, herror⟩ := herror
  cases point with
  | preCall => exact .inl ⟨nofun, hpre⟩
  | postCall => exact .inl ⟨nofun, hpost⟩
  | onSuccess => exact .inl ⟨nofun, hsuccess⟩
  | onError =>
    rcases herror with ⟨hsome, hcs⟩ | ⟨hnone, hnil⟩
    · exact .inl ⟨fun _ => hsome, hcs⟩
    · exact .inr ⟨fun hasked => hnone (hasked rfl), hnil⟩

theorem mem_fragments_at {f : Fragments} (h : fragments m table hooks = .ok f)
    (point : HookPoint) : ⟨hook, code⟩ ∈ f.at point ↔
      hook ∈ hooks ∧ Consulted m point ∧ hook.fragment point m table = .ok (some code) := by
  rcases fragments_eq_ok h point with ⟨hasked, hcs⟩ | ⟨hunasked, hnil⟩
  · rw [mem_contributions hcs]
    exact and_congr_right' (iff_and_self.mpr fun _ => hasked)
  · rw [hnil]
    exact ⟨fun h => (List.not_mem_nil h).elim, fun h => (hunasked h.2.1).elim⟩

theorem mem_fragments_hooks {f : Fragments} (h : fragments m table hooks = .ok f) :
    hook ∈ f.hooks ↔ hook ∈ hooks ∧ Contributes hook m table := by
  have hpoints : hook ∈ f.hooks ↔ ∃ point code, ⟨hook, code⟩ ∈ f.at point := by
    simp only [Fragments.hooks, List.mem_map, List.mem_append]
    constructor
    · rintro ⟨⟨_, code⟩, ((hc | hc) | hc) | hc, rfl⟩
      · exact ⟨.preCall, code, hc⟩
      · exact ⟨.postCall, code, hc⟩
      · exact ⟨.onSuccess, code, hc⟩
      · exact ⟨.onError, code, hc⟩
    · rintro ⟨point, code, hc⟩
      refine ⟨⟨hook, code⟩, ?_, rfl⟩
      cases point with
      | preCall => exact .inl (.inl (.inl hc))
      | postCall => exact .inl (.inl (.inr hc))
      | onSuccess => exact .inl (.inr hc)
      | onError => exact .inr hc
  simp only [hpoints, mem_fragments_at h, exists_and_left, Contributes]

theorem instrument_eq_ok {methods : List Method} {pairs : List (Method × Fragments)}
    (h : instrument table hooks methods = .ok pairs) : pairs.map (·.1) = methods ∧
      ∀ pair ∈ pairs, fragments pair.1 table hooks = .ok pair.2 := by
  induction methods generalizing pairs with
  | nil => cases h; exact ⟨rfl, nofun⟩
  | cons m methods ih =>
    obtain ⟨f, hf, h⟩ := bind_eq_ok.mp h
    obtain ⟨rest, hrest, h⟩ := bind_eq_ok.mp h
    cases h
    obtain ⟨hmap, hfragments⟩ := ih hrest
    exact ⟨congrArg (m :: ·) hmap, List.forall_mem_cons.mpr ⟨hf, hfragments⟩⟩

/-- What holds of some method with its fragments, said of the method alone. -/
theorem exists_instrumented_iff {methods : List Method} {pairs : List (Method × Fragments)}
    (h : instrument table hooks methods = .ok pairs) {P : Method → Fragments → Prop}
    {Q : Method → Prop} (hiff : ∀ m f, fragments m table hooks = .ok f → (P m f ↔ Q m)) :
    (∃ pair ∈ pairs, P pair.1 pair.2) ↔ ∃ m ∈ methods, Q m := by
  obtain ⟨rfl, hfragments⟩ := instrument_eq_ok h
  simp only [List.mem_map, exists_exists_and_eq_and]
  exact exists_congr fun pair => and_congr_right fun hpair => hiff _ _ (hfragments pair hpair)

end Interposer.Wrapper
