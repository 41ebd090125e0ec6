import Mathlib.Data.List.Basic

/-! What a text begins with: a span of characters of one kind, and the numeral of a number, which
has no zero in front. -/

namespace Interposer.Text

variable {w rest : List Char}

/-- A span ends where a character of another kind follows. -/
theorem takeWhile_append_of_head {p : Char → Bool} (hw : ∀ c ∈ w, p c = true)
    (hrest : ∀ c ∈ rest.head?, p c = false) : (w ++ rest).takeWhile p = w := by
  rw [List.takeWhile_append_of_pos hw]
  cases rest with
  | nil => simp
  | cons c rest => simp [hrest c rfl]

theorem dropWhile_append_of_head {p : Char → Bool} (hw : ∀ c ∈ w, p c = true)
    (hrest : ∀ c ∈ rest.head?, p c = false) : (w ++ rest).dropWhile p = rest := by
  rw [List.dropWhile_append_of_pos hw]
  cases rest with
  | nil => rfl
  | cons c rest => simp [hrest c rfl]

/-- No number but zero begins with a zero. -/
theorem toDigits_eq_cons (n : Nat) :
    ∃ d ds, Nat.toDigits 10 n = d :: ds ∧ (d = '0' → n = 0) := by
  have hsmall : ∀ n < 10, n.digitChar = '0' → n = 0 := by decide
  induction n using Nat.strongRecOn with
  | ind n ih =>
    rcases Nat.lt_or_ge n 10 with hn | hn
    · exact ⟨n.digitChar, [], Nat.toDigits_of_lt_base hn, hsmall n hn⟩
    · obtain ⟨d, ds, hdigits, hzero⟩ := ih (n / 10) (by omega)
      refine ⟨d, ds ++ [(n % 10).digitChar], ?_, fun hd => ?_⟩
      · rw [Nat.toDigits_of_base_le (by decide) hn, hdigits, List.cons_append]
      · have := hzero hd
        omega

theorem isDigit_of_mem_toDigits {n : Nat} {d : Char} (hd : d ∈ Nat.toDigits 10 n) :
    d.isDigit = true := Nat.isDigit_of_mem_toDigits (by decide) (Nat.le_refl 10) hd

theorem toString_eq_cons (n : Nat) : ∃ d ds, (toString n).toList = d :: ds ∧
    (∀ d' ∈ d :: ds, d'.isDigit = true) ∧ (d = '0' → ds = []) := by
  obtain ⟨d, ds, hdigits, hzero⟩ := toDigits_eq_cons n
  refine ⟨d, ds, ?_, fun d' hd' => isDigit_of_mem_toDigits (hdigits ▸ hd'), fun hd => ?_⟩
  · rw [Nat.toString_eq_ofList_toDigits, String.toList_ofList, hdigits]
  · rw [hzero hd, Nat.toDigits_zero] at hdigits
    exact (List.cons.inj hdigits).2.symm

end Interposer.Text
